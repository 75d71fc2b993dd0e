import Mathlib.Algebra.Group.Nat.Defs
import UsbDvbs2.Bridge.Calls
import UsbDvbs2.Engine.Avl62x1

/-! # Register bursts in messages

`avl_write` down to the commands of the bridge. A block of data goes out in
messages of at most 32 bytes behind a register address that moves on with the
data, so that the block is written as if in one.
-/

namespace Engine.Avl62x1

open Bridge Concurrency Program

/-- A message to the demodulator: three bytes of the register, and data. -/
def packet (reg : UInt32) (data : List UInt8) : List UInt8 :=
  [(reg >>> 16).toUInt8, (reg >>> 8).toUInt8, reg.toUInt8] ++ data

/-- The loop of `avl_write` on the bridge: at most 32 bytes a message. -/
def avlWriteChunks (chip : Chip) (addr : UInt8) : Nat → UInt32 → List UInt8 → Bridge.Code Int
  | 0, _, _ => .done 0
  | rounds + 1, reg, data =>
      if data.isEmpty then .done 0
      else
        let chunk := data.take writeDataMax
        ifZero (it9300I2cWrite chip addr (packet reg chunk)) do
          let pause : Bool ← call .countWrite
          when pause (call (.sleep 1))
          avlWriteChunks chip addr rounds (reg + chunk.length.toUInt32) (data.drop writeDataMax)

def avlWrite (chip : Chip) (addr : UInt8) (reg : UInt32) (data : List UInt8) : Bridge.Code Int :=
  avlWriteChunks chip addr data.length reg data

/-- The messages of a block, if none of them fails. -/
def bursts : Nat → UInt32 → List UInt8 → List (List UInt8)
  | 0, _, _ => []
  | rounds + 1, reg, data =>
      if data.isEmpty then []
      else
        packet reg (data.take writeDataMax) ::
          bursts rounds (reg + (data.take writeDataMax).length.toUInt32) (data.drop writeDataMax)

/-- The registers that a message writes, one after the other from its address. -/
def landed (message : List UInt8) : List (Nat × UInt8) :=
  let start := (message.getD 0 0).toNat * 0x10000 + (message.getD 1 0).toNat * 0x100 +
    (message.getD 2 0).toNat
  (message.drop 3).mapIdx fun offset byte => ((start + offset) % 2 ^ 24, byte)

/-- A block of data in the registers from a start on. -/
def inRegisters (start : Nat) (data : List UInt8) : List (Nat × UInt8) :=
  data.mapIdx fun offset byte => ((start + offset) % 2 ^ 24, byte)

/-! ## Where the data go -/

variable {rounds : Nat} {reg : UInt32} {data : List UInt8}

theorem length_inRegisters (start : Nat) (data : List UInt8) :
    (inRegisters start data).length = data.length := List.length_mapIdx

theorem inRegisters_congr {start other : Nat} (same : start % 2 ^ 24 = other % 2 ^ 24)
    (data : List UInt8) : inRegisters start data = inRegisters other data := by
  have places : ∀ offset, (start + offset) % 2 ^ 24 = (other + offset) % 2 ^ 24 := fun offset => by
    rw [Nat.add_mod, same, ← Nat.add_mod]
  simp only [inRegisters, places]

theorem inRegisters_append (start : Nat) (front back : List UInt8) :
    inRegisters start (front ++ back) =
      inRegisters start front ++ inRegisters (start + front.length) back := by
  have behind : ∀ offset, start + (offset + front.length) = start + front.length + offset :=
    fun offset => by omega
  simp only [inRegisters, List.mapIdx_append, behind]

/-- The three bytes are the address up to the size of the register space. -/
theorem landed_packet (reg : UInt32) (data : List UInt8) :
    landed (packet reg data) = inRegisters reg.toNat data := by
  have address : (reg >>> 16).toUInt8.toNat * 0x10000 + (reg >>> 8).toUInt8.toNat * 0x100 +
      reg.toUInt8.toNat = reg.toNat % 2 ^ 24 := by
    simp only [UInt32.toNat_toUInt8, UInt32.toNat_shiftRight, Nat.shiftRight_eq_div_pow]
    change reg.toNat / 2 ^ 16 % 2 ^ 8 * 0x10000 + reg.toNat / 2 ^ 8 % 2 ^ 8 * 0x100 +
      reg.toNat % 2 ^ 8 = _
    omega
  change inRegisters ((reg >>> 16).toUInt8.toNat * 0x10000 +
    (reg >>> 8).toUInt8.toNat * 0x100 + reg.toUInt8.toNat) data = _
  rw [address]
  exact inRegisters_congr (Nat.mod_mod _ _) data

/-- The address moves on with the data, wrapping around as the registers do. -/
theorem inRegisters_advance (reg : UInt32) (count : Nat) (data : List UInt8) :
    inRegisters (reg + count.toUInt32).toNat data = inRegisters (reg.toNat + count) data := by
  apply inRegisters_congr
  rw [UInt32.toNat_add]
  change (reg.toNat + count % 2 ^ 32) % 2 ^ 32 % 2 ^ 24 = _
  omega

theorem length_packet (reg : UInt32) (data : List UInt8) :
    (packet reg data).length = data.length + 3 := by
  rw [packet, List.length_append, Nat.add_comm]
  rfl

/-- Every message has some of the data, and no more than fit. -/
theorem length_bursts {message : List UInt8} (sent : message ∈ bursts rounds reg data) :
    3 < message.length ∧ message.length ≤ 35 := by
  induction rounds generalizing reg data with
  | zero => exact nomatch sent
  | succ rounds ih =>
      rw [bursts] at sent
      split at sent
      · exact nomatch sent
      · rename_i some
        have positive : 0 < data.length :=
          List.length_pos_iff.2 fun empty => some (List.isEmpty_iff.2 empty)
        rcases List.mem_cons.1 sent with rfl | later
        · rw [length_packet, List.length_take, writeDataMax]
          omega
        · exact ih later

/-- As many messages as were written hold as many whole chunks of the data. -/
theorem landed_bursts (enough : data.length ≤ rounds) (count : Nat) :
    ((bursts rounds reg data).take count).flatMap landed =
      (inRegisters reg.toNat data).take (writeDataMax * count) := by
  induction rounds generalizing reg data count with
  | zero =>
      rw [List.length_eq_zero_iff.1 (Nat.le_zero.1 enough), bursts, List.take_nil]
      exact List.take_nil.symm
  | succ rounds ih =>
      rw [bursts]
      split
      · rename_i empty
        rw [List.isEmpty_iff.1 empty, List.take_nil]
        exact List.take_nil.symm
      rename_i some
      have positive : 0 < data.length :=
        List.length_pos_iff.2 fun empty => some (List.isEmpty_iff.2 empty)
      cases count with
      | zero => rfl
      | succ count =>
          have fewer : (data.drop writeDataMax).length ≤ rounds := by
            rw [List.length_drop, writeDataMax]
            omega
          have cut := inRegisters_append reg.toNat (data.take writeDataMax) (data.drop writeDataMax)
          rw [List.take_append_drop] at cut
          rw [List.take_succ_cons, List.flatMap_cons, ih fewer, inRegisters_advance,
            landed_packet, cut]
          by_cases long : writeDataMax ≤ data.length
          · have first : (data.take writeDataMax).length = writeDataMax :=
              List.length_take_of_le long
            have held : (inRegisters reg.toNat (data.take writeDataMax)).length ≤
                writeDataMax * count + writeDataMax := by
              rw [length_inRegisters, first]
              exact Nat.le_add_left _ _
            rw [Nat.mul_succ, List.take_append, List.take_of_length_le held, length_inRegisters,
              first, Nat.add_sub_cancel]
          · have all : data.take writeDataMax = data :=
              List.take_of_length_le (Nat.le_of_not_le long)
            have none : data.drop writeDataMax = [] :=
              List.drop_eq_nil_of_le (Nat.le_of_not_le long)
            rw [all, none]
            change _ ++ List.take _ [] = List.take _ (_ ++ [])
            rw [List.take_nil, List.append_nil, List.take_of_length_le]
            rw [length_inRegisters, Nat.mul_succ]
            omega

/-- What the first messages hold. -/
theorem landed_front {written later : List (List UInt8)}
    (cut : bursts data.length reg data = written ++ later) :
    written.flatMap landed = (inRegisters reg.toNat data).take (writeDataMax * written.length) := by
  have first := @landed_bursts _ reg data (Nat.le_refl _) written.length
  rwa [cut, List.take_left] at first

/-- All of the messages hold all of the data. -/
theorem landed_whole (reg : UInt32) (data : List UInt8) :
    (bursts data.length reg data).flatMap landed = inRegisters reg.toNat data := by
  have all := @landed_bursts _ reg data (Nat.le_refl _)
    ((bursts data.length reg data).length + data.length)
  rw [List.take_of_length_le (Nat.le_add_right _ _), List.take_of_length_le] at all
  · exact all
  · rw [length_inRegisters, writeDataMax]
    omega

/-- A message that is still to come has some of the data. -/
theorem unfinished {written later : List (List UInt8)} {message : List UInt8}
    (cut : bursts data.length reg data = written ++ message :: later) :
    writeDataMax * written.length < data.length := by
  have member : message ∈ bursts data.length reg data :=
    cut ▸ List.mem_append_right _ List.mem_cons_self
  have some : 0 < (landed message).length := by
    rw [landed, List.length_mapIdx, List.length_drop]
    have long := (length_bursts member).1
    omega
  have sizes := congrArg List.length (landed_whole reg data)
  rw [cut, List.flatMap_append, List.flatMap_cons, landed_front cut, List.length_append,
    List.length_append, List.length_take, length_inRegisters] at sizes
  omega

/-! ## The loop -/

/-- Messages that are sent one after the other until one is answered with a failure. -/
def SentUntilFailure (commands : List Command) (rc : Int) (messages : List (Command × Int)) :
    Prop :=
  (rc = 0 ∧ messages = commands.map fun command => (command, 0)) ∨
    rc ≠ 0 ∧ ∃ done failed rest, commands = done ++ failed :: rest ∧
      messages = (done.map fun command => (command, 0)) ++ [(failed, rc)]

theorem SentUntilFailure.cons {commands : List Command} {rc : Int}
    {messages : List (Command × Int)} (later : SentUntilFailure commands rc messages)
    (command : Command) : SentUntilFailure (command :: commands) rc ((command, 0) :: messages) := by
  rcases later with ⟨zero, rfl⟩ | ⟨failure, done, failed, rest, rfl, rfl⟩
  · exact .inl ⟨zero, rfl⟩
  · exact .inr ⟨failure, command :: done, failed, rest, rfl, rfl⟩

/-- Follow the commands that are sent. -/
def sending : Watch calls (List (Command × Int)) where
  see seen performed := seen ++ sent [performed]
  Allows _ _ := True

theorem foldl_sending (trace : List (Performed calls)) (seen : List (Command × Int)) :
    trace.foldl sending.see seen = seen ++ sent trace := by
  induction trace generalizing seen with
  | nil => exact (List.append_nil seen).symm
  | cons performed trace ih =>
      rw [List.foldl_cons, ih]
      change (seen ++ sent [performed]) ++ sent trace = _
      rw [List.append_assoc, ← List.singleton_append (l := trace), sent, sent, sent,
        List.filterMap_append]

theorem ensures_breath {α : Type} {rest : Bridge.Code α} {post : α → List (Command × Int) → Prop}
    {seen : List (Command × Int)} (later : rest.Ensures sending post seen) :
    Ensures sending post (do
      let pause : Bool ← call .countWrite
      when pause (call (.sleep 1))
      rest) seen := by
  refine ⟨trivial, fun pause => ?_⟩
  have silent : sending.see seen ⟨Call.countWrite, pause⟩ = seen := List.append_nil seen
  rw [silent]
  cases pause with
  | false => exact later
  | true =>
      refine ⟨trivial, fun answer => ?_⟩
      have slept : sending.see seen ⟨Call.sleep 1, answer⟩ = seen := List.append_nil seen
      rw [slept]
      exact later

theorem avlWriteChunks_ensures (chip : Chip) (addr : UInt8) (seen : List (Command × Int)) :
    (avlWriteChunks chip addr rounds reg data).Ensures sending (fun rc after => ∃ messages,
      after = seen ++ messages ∧
        SentUntilFailure ((bursts rounds reg data).map (chip.i2cCommand addr)) rc messages)
      seen := by
  induction rounds generalizing reg data seen with
  | zero => exact ⟨[], (List.append_nil seen).symm, .inl ⟨rfl, rfl⟩⟩
  | succ rounds ih =>
      rw [avlWriteChunks, bursts]
      split
      · exact ⟨[], (List.append_nil seen).symm, .inl ⟨rfl, rfl⟩⟩
      have fits : 5 + (packet reg (data.take writeDataMax)).length ≤ maxXferSize := by
        rw [length_packet, List.length_take, writeDataMax, maxXferSize]
        omega
      rw [ensures_ifZero, it9300I2cWrite_fits chip addr fits]
      refine ⟨trivial, fun answer => ?_⟩
      change if answer.1 ≠ 0 then _ else _
      split
      · rename_i failure
        exact ⟨_, rfl, .inr ⟨failure, [], _, _, rfl, rfl⟩⟩
      · rename_i accepted
        apply ensures_breath
        apply (ih _).mono
        rintro rc _ ⟨messages, rfl, until_failure⟩
        refine ⟨_ :: messages, List.append_assoc _ _ _, ?_⟩
        have zero : answer.1 = 0 := not_not.1 accepted
        rw [List.map_cons]
        change SentUntilFailure _ rc ((_, answer.1) :: messages)
        rw [zero]
        exact until_failure.cons _

/-- The demodulator's driver writes its registers in these bursts, once its messages are sent
through the bridge. -/
theorem write_carried {onto : (operation : Op) → Bridge.Code operation.Answer} (chip : Chip)
    (addr : UInt8) (messages : ∀ reg data,
      onto (.demodWrite reg data) = it9300I2cWrite chip addr (packet reg data))
    (counts : onto .paceWrite = call .countWrite) (sleeps : onto (.sleep 1) = call (.sleep 1))
    (reg : UInt32) (data : List UInt8) :
    (write reg data).carried onto = avlWrite chip addr reg data := by
  have breath : breathe.carried onto =
      call .countWrite >>= fun pause : Bool => when pause (call (.sleep 1)) := by
    have counted : (op .paceWrite).carried onto = call .countWrite :=
      (@carried_perform signature calls onto .paceWrite).trans counts
    have slept : (Engine.sleep 1).carried onto = call (.sleep 1) :=
      (@carried_perform signature calls onto (.sleep 1)).trans sleeps
    rw [breathe, carried_bind, counted]
    refine congrArg _ (funext fun pause => ?_)
    cases pause with
    | false => rfl
    | true => exact slept
  have chunks : ∀ rounds reg data, (writeChunks rounds reg data).carried onto =
      avlWriteChunks chip addr rounds reg data := by
    intro rounds
    induction rounds with
    | zero => exact fun reg data => rfl
    | succ rounds ih =>
        intro reg data
        rw [writeChunks, avlWriteChunks]
        split
        · rfl
        · have message : (op (.demodWrite reg (data.take writeDataMax))).carried onto =
              it9300I2cWrite chip addr (packet reg (data.take writeDataMax)) :=
            (@carried_perform signature calls onto (.demodWrite _ _)).trans (messages _ _)
          rw [carried_ifZero, message, carried_bind, breath, bind_bind, ih]
  exact chunks data.length reg data

/-- **A burst is one logical write.** Whatever the bridge answers, `avl_write` sends messages
of at most 35 bytes, and those that were accepted write, in order, as many whole chunks of the
data to the registers that follow the start. It returns zero when these are all of the data,
and otherwise the code of the one message that failed, which was the last. -/
theorem avlWrite_burst (chip : Chip) (addr : UInt8) (reg : UInt32) (data : List UInt8)
    (environment : Environment calls) (past : List (Performed calls)) :
    let run := (avlWrite chip addr reg data).run environment past
    ∃ written : List (List UInt8), (∀ message ∈ written, message.length ≤ 35) ∧
      written.flatMap landed = (inRegisters reg.toNat data).take (writeDataMax * written.length) ∧
      ((run.2 = 0 ∧ written.flatMap landed = inRegisters reg.toNat data ∧
          sent run.1 = written.map fun message => (chip.i2cCommand addr message, 0)) ∨
        (run.2 ≠ 0 ∧ writeDataMax * written.length < data.length ∧ ∃ failed : List UInt8,
          failed.length ≤ 35 ∧
          (written ++ [failed]).flatMap landed =
            (inRegisters reg.toNat data).take (writeDataMax * (written.length + 1)) ∧
          sent run.1 = (written.map fun message => (chip.i2cCommand addr message, 0)) ++
            [(chip.i2cCommand addr failed, run.2)])) := by
  intro run
  obtain ⟨-, messages, all, until_failure⟩ :=
    (@avlWriteChunks_ensures data.length reg data chip addr []).run environment past
  rw [foldl_sending, List.nil_append, List.nil_append] at all
  rcases until_failure with ⟨zero, rfl⟩ | ⟨failure, done, failed, rest, cut, rfl⟩
  · refine ⟨bursts data.length reg data, fun message mem => (length_bursts mem).2,
      landed_front (List.append_nil _).symm, .inl ⟨zero, landed_whole reg data, ?_⟩⟩
    exact all.trans List.map_map
  · obtain ⟨written, later, split, rfl, next⟩ := List.map_eq_append_iff.1 cut
    obtain ⟨message, others, rfl, rfl, rfl⟩ := List.map_eq_cons_iff.1 next
    have onward : bursts data.length reg data = (written ++ [message]) ++ others := by
      rw [split, List.append_assoc, List.singleton_append]
    have second := landed_front onward
    rw [List.length_append, List.length_singleton] at second
    refine ⟨written, fun other mem => ?_, landed_front split, .inr ⟨failure, unfinished split,
      message, ?_, second, ?_⟩⟩
    · exact (length_bursts (split ▸ List.mem_append_left _ mem)).2
    · exact (length_bursts (split ▸ List.mem_append_right _ List.mem_cons_self)).2
    · rw [List.map_map] at all
      exact all

end Engine.Avl62x1

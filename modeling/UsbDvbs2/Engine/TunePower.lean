import UsbDvbs2.Engine.LnbSupply

/-! # Is the LNB powered after a successful tune?

`Books.Consistent` ties the control pins to the flag and to the cached
transponder; every call whose LNB writes go through keeps it. A tune that goes
through `daemon_tune` then leaves the pins as asked for. A tune skipped for the
same transponder leaves them as they are, which is dark after a power down.
-/

namespace Engine

open Concurrency Program Machine

/-- The pins the engine drives for a supply voltage. -/
def poweredPins (volts : UInt32) : LnbPins := ⟨1, selectLevel volts⟩

/-- While the flag is clear the supply is off; while it is set and the
demodulator is tuned, the pins match the cached voltage. -/
structure Books.Consistent (books : Books) : Prop where
  dark : books.lnbEnabled = false → books.lnbPins.enable = 0
  matched : books.lnbEnabled = true → books.tuned = true →
    Powers books.transponder.lnbV ∧ books.lnbPins = poweredPins books.transponder.lnbV

/-- Every LNB write was answered with success. -/
def Written (writes : List LnbWrite) : Prop := ∀ write ∈ writes, write.code = 0

instance (writes : List LnbWrite) : Decidable (Written writes) :=
  inferInstanceAs (Decidable (∀ write ∈ writes, write.code = 0))

/-! ## One call -/

theorem Driven.of_written {pins after : LnbPins} {enable select : UInt32}
    {writes : List LnbWrite} {code : Int} (drives : Driven pins enable select writes code after)
    (written : Written writes) : code = 0 ∧ after = ⟨enable, select⟩ := by
  cases drives with
  | enableFailed failed => exact (failed (written _ List.mem_cons_self)).elim
  | selectFailed failed =>
      exact (failed (written _ (List.mem_cons_of_mem _ List.mem_cons_self))).elim
  | driven => exact ⟨rfl, rfl⟩

theorem Driven.zero {pins after : LnbPins} {enable select : UInt32} {writes : List LnbWrite}
    (drives : Driven pins enable select writes 0 after) : after = ⟨enable, select⟩ := by
  cases drives with
  | enableFailed failed => exact (failed rfl).elim
  | selectFailed failed => exact (failed rfl).elim
  | driven => rfl

theorem SwitchedOff.of_written {before after : Books} {writes : List LnbWrite}
    (off : SwitchedOff before writes after) (written : Written writes) :
    after = { before with lnbPins := ⟨0, 0⟩, lnbEnabled := false } := by
  cases off with
  | intro drives => rw [(drives.of_written written).2]

/-- Switching on with success leaves the flag set and the pins as asked for. -/
theorem SwitchedOn.zero {volts : UInt32} {before after : Books} {writes : List LnbWrite}
    (on : SwitchedOn volts before writes 0 after) :
    Powers volts ∧ after.lnbEnabled = true ∧ after.lnbPins = poweredPins volts := by
  cases on with
  | on powers drives => exact ⟨powers, rfl, drives.zero⟩

theorem SwitchedOn.dark {volts : UInt32} {before after : Books} {writes : List LnbWrite} {rc : Int}
    (on : SwitchedOn volts before writes rc after) (written : Written writes)
    (dark : before.lnbEnabled = false → before.lnbPins.enable = 0) :
    after.lnbEnabled = false → after.lnbPins.enable = 0 := by
  cases on with
  | unsupported => exact dark
  | failed _ nonzero drives => exact (nonzero (drives.of_written written).1).elim
  | on => exact fun clear => (Bool.noConfusion clear)

theorem SwitchedLnb.dark {asked : Transponder} {relight changed : Bool} {before after : Books}
    {writes : List LnbWrite} {rc : Int}
    (lnb : SwitchedLnb asked relight before changed writes rc after) (written : Written writes)
    (dark : before.lnbEnabled = false → before.lnbPins.enable = 0) :
    after.lnbEnabled = false → after.lnbPins.enable = 0 := by
  cases lnb with
  | kept => exact dark
  | poweredDown _ down =>
      cases down with
      | already => exact dark
      | off _ off => rw [off.of_written written]; exact fun _ => rfl
  | switched _ _ on => exact on.dark written dark
  | relit _ _ off on =>
      have parts := List.forall_mem_append.mp written
      rw [off.of_written parts.1] at on
      exact on.dark parts.2 fun _ => rfl

/-- A successful LNB part with the supply on leaves the pins as asked for. -/
theorem SwitchedLnb.matched {asked : Transponder} {relight changed : Bool} {before after : Books}
    {writes : List LnbWrite} (decided : Decided asked before relight changed)
    (lnb : SwitchedLnb asked relight { before with tuned := false } changed writes 0 after)
    (matched : before.lnbEnabled = true → before.tuned = true →
      Powers before.transponder.lnbV ∧ before.lnbPins = poweredPins before.transponder.lnbV)
    (powered : after.lnbEnabled = true) :
    Powers asked.lnbV ∧ after.lnbPins = poweredPins asked.lnbV := by
  cases lnb with
  | kept =>
      have same : asked.lnbV = before.transponder.lnbV := by
        have equal := decided.same rfl
        simp only [Transponder.sameLnb, Bool.and_eq_true, beq_iff_eq] at equal
        exact equal.1.1.1.1.1
      rw [same]
      exact matched powered (decided.locked (decided.steady rfl))
  | poweredDown _ down =>
      cases down with
      | already off => rw [off] at powered; cases powered
      | off _ off => cases off; cases powered
  | switched _ _ on => exact ⟨on.zero.1, on.zero.2.2⟩
  | relit _ _ _ on => exact ⟨on.zero.1, on.zero.2.2⟩

theorem PoweredDown.consistent {before after : Books} {writes : List LnbWrite}
    (down : PoweredDown before writes after) (written : Written writes)
    (valid : before.Consistent) : after.Consistent := by
  cases down with
  | already => exact valid
  | off _ off =>
      rw [off.of_written written]
      exact ⟨fun _ => rfl, fun powered => (Bool.noConfusion powered)⟩

theorem Tuned.consistent {asked : Transponder} {before after : Books} {writes : List LnbWrite}
    {rc : Int} (tuned : Tuned asked before writes rc after) (written : Written writes)
    (valid : before.Consistent) : after.Consistent := by
  cases tuned with
  | refused => exact ⟨valid.dark, fun _ locked => absurd locked Bool.false_ne_true⟩
  | failed decided lnb =>
      refine ⟨lnb.dark written valid.dark, fun _ locked => ?_⟩
      rw [lnb.tuned_eq] at locked
      exact absurd locked Bool.false_ne_true
  | searched decided lnb =>
      refine ⟨lnb.dark written valid.dark, fun powered _ => ?_⟩
      have matched := SwitchedLnb.matched decided lnb valid.matched powered
      exact matched

/-- A tune that went through `daemon_tune` with success powers the LNB. -/
theorem Tuned.powers {asked : Transponder} {before after : Books} {writes : List LnbWrite}
    (tuned : Tuned asked before writes 0 after) (valid : before.Consistent)
    (powers : Powers asked.lnbV) : after.lnbPins = poweredPins asked.lnbV := by
  generalize zero : (0 : Int) = rc at tuned
  cases tuned with
  | refused => cases zero
  | failed => cases zero
  | searched decided lnb =>
      refine (SwitchedLnb.matched decided lnb valid.matched ?_).2
      cases lnb with
      | kept => exact decided.powered rfl
      | poweredDown down => exact absurd powers (by rw [down]; decide)
      | switched _ _ on => exact on.zero.2.1
      | relit _ _ _ on => exact on.zero.2.1

/-! ## The public calls -/

/-- The skip test answered yes: the same transponder, locked, and data younger
than three seconds by the two clock readings of the test. -/
def Skips (asked : Transponder) (before : State) (trace : Trace) : Prop :=
  asked = before.transponder ∧ before.tuned = true ∧
    ∃ now last cached rest, now - last < (3000 : UInt32) ∧
      trace = ⟨.getTransponder, cached⟩ :: ⟨.getTuned, true⟩ :: ⟨.tick32, now⟩ ::
        ⟨.getStreamDataTick, last⟩ :: rest

theorem executes_sameTransponder {asked : Transponder} {state final : State} {trace : Trace}
    {skip : Bool} (run : machine.Executes state (sameTransponder asked) trace skip final)
    (more : Trace) : skip = true ↔ Skips asked state (trace ++ more) := by
  obtain ⟨_, cached, first, _, got, later, rfl⟩ := executes_bind.mp run
  have cachedIs : cached = state.transponder := executes_getTransponder got
  have books₁ : first.books = state.books := (quiet_op.mpr id : Quiet (op _)).books_eq got
  obtain ⟨_, rfl⟩ := executes_perform.mp got
  split at later
  · rename_i differs
    obtain ⟨_, rfl, _⟩ := executes_done.mp later
    refine iff_of_false Bool.false_ne_true fun skips => differs ?_
    rw [cachedIs]
    exact skips.1
  · rename_i equal
    have same : asked = state.transponder := (Decidable.not_not.mp equal).trans cachedIs
    obtain ⟨_, tuned, second, _, read, tests, rfl⟩ := executes_bind.mp later
    have tunedIs : tuned = state.tuned :=
      (executes_getTuned read).trans (congrArg Books.tuned books₁)
    obtain ⟨_, rfl⟩ := executes_perform.mp read
    cases tuned with
    | false =>
        obtain ⟨_, rfl, _⟩ := executes_done.mp tests
        exact iff_of_false Bool.false_ne_true fun skips =>
          Bool.false_ne_true (tunedIs.trans skips.2.1)
    | true =>
        obtain ⟨_, now, _, _, ticked, compares, rfl⟩ := executes_bind.mp tests
        obtain ⟨_, last, _, _, dated, done, rfl⟩ := executes_bind.mp compares
        obtain ⟨_, rfl⟩ := executes_perform.mp ticked
        obtain ⟨_, rfl⟩ := executes_perform.mp dated
        obtain ⟨rfl, rfl, _⟩ := executes_done.mp done
        rw [decide_eq_true_iff]
        constructor
        · exact fun young => ⟨same, tunedIs.symm, now, last, cached, more, young, rfl⟩
        · intro skips
          rcases skips with ⟨_, _, now', last', cached', rest, young, shape⟩
          simp only [List.cons_append, List.nil_append, List.cons.injEq, Sigma.mk.injEq,
            heq_eq_eq, true_and] at shape
          obtain ⟨_, rfl, rfl, _⟩ := shape
          exact young

/-- A tune is skipped and changes nothing, or goes through `daemon_tune`. -/
theorem executes_tune {asked : Transponder} {state final : State} {trace : Trace} {rc : Int}
    (run : machine.Executes state (tune asked) trace rc final) :
    Skips asked state trace ∧ lnbWrites trace = [] ∧ final.books = state.books ∨
      ¬ Skips asked state trace ∧ Tuned asked state.books (lnbWrites trace) rc final.books := by
  obtain ⟨first, skip, middle, second, tested, later, rfl⟩ := executes_bind.mp run
  have quiet := quiet_sameTransponder asked
  have skips := executes_sameTransponder tested second
  rw [lnbWrites_append, quiet.lnbWrites_eq tested, List.nil_append, ← quiet.books_eq tested]
  cases skip with
  | true =>
      have said : Quiet (op (.log "TUNE skipped (same transponder).\n") >>= fun _ =>
          (pure 0 : Code Int)) := .bind (quiet_op.mpr id) fun _ => .done 0
      exact .inl ⟨skips.mp rfl, said.lnbWrites_eq later, said.books_eq later⟩
  | false =>
      refine .inr ⟨fun absurd => Bool.false_ne_true (skips.mpr absurd), ?_⟩
      obtain ⟨_, locked, _, _, _, tunes, same, writes⟩ := executes_quiet_op .lockTune id later
      obtain ⟨third, code, last, fourth, tuned, releases, rfl⟩ := executes_bind.mp tunes
      have released : Quiet (releaseTune >>= fun _ => (pure code : Code Int)) :=
        .bind quiet_releaseTune fun _ => .done code
      obtain ⟨_, _, _, _, _, done, _⟩ := executes_bind.mp releases
      obtain ⟨_, rfl, _⟩ := executes_done.mp done
      rw [writes, lnbWrites_append, released.lnbWrites_eq releases, List.append_nil,
        released.books_eq releases, ← same]
      exact executes_daemonTune tuned

/-- A monitor round leaves the books alone or tunes to the cached transponder. -/
def Monitored (before : Books) (writes : List LnbWrite) (after : Books) : Prop :=
  writes = [] ∧ after = before ∨ ∃ rc, Tuned before.transponder before writes rc after

theorem Quiet.monitored {α : Type} {code : Code α} {state final : State} {trace : Trace}
    {value : α} (quiet : Quiet code) (run : machine.Executes state code trace value final) :
    Monitored state.books (lnbWrites trace) final.books :=
  .inl ⟨quiet.lnbWrites_eq run, quiet.books_eq run⟩

theorem executes_reacquire {state final : State} {trace : Trace} {value : Unit}
    (run : machine.Executes state reacquire trace value final) :
    Monitored state.books (lnbWrites trace) final.books := by
  obtain ⟨_, _, _, _, _, logs, books₁, writes₁⟩ := executes_quiet_op .setRelight id run
  obtain ⟨_, _, _, _, _, reads, books₂, writes₂⟩ :=
    executes_quiet_op (.log "Re-acquiring the carrier.\n") id logs
  obtain ⟨cached, _, _, _, got, tunes, books₃, writes₃⟩ :=
    executes_quiet_op .getTransponder id reads
  obtain ⟨_, rc, _, _, tuned, done, rfl⟩ := executes_bind.mp tunes
  obtain ⟨rfl, _, rfl⟩ := executes_done.mp done
  have cachedIs := executes_getTransponder got
  have outcome := executes_daemonTune tuned
  rw [books₃, books₂, books₁] at outcome
  rw [books₂, books₁] at cachedIs
  rw [cachedIs] at outcome
  rw [writes₁, writes₂, writes₃, List.append_nil]
  exact .inr ⟨rc, outcome⟩

theorem executes_checkCarrier {state final : State} {trace : Trace} {value : Unit}
    (run : machine.Executes state checkCarrier trace value final) :
    Monitored state.books (lnbWrites trace) final.books := by
  have said : ∀ line, Quiet (op (.log line)) := fun _ => quiet_op.mpr id
  obtain ⟨asked, _, _, _, _, later, books, writes⟩ := plain_askDemod.quiet.split run
  rw [writes, ← books]
  cases asked with
  | some status =>
      cases locked : status.locked with
      | true =>
          simp only [locked, ↓reduceIte] at later
          exact (said _).monitored later
      | false =>
          simp only [locked, Bool.false_eq_true, ↓reduceIte] at later
          exact executes_reacquire later
  | none =>
      obtain ⟨tuned, _, _, _, _, rest, books', writes'⟩ := executes_quiet_op .getTuned id later
      rw [writes', ← books']
      split at rest
      · exact (said _).monitored rest
      · exact executes_reacquire rest

theorem executes_monitorRound {state final : State} {trace : Trace} {runs : Bool}
    (run : machine.Executes state monitorRound trace runs final) :
    Monitored state.books (lnbWrites trace) final.books := by
  obtain ⟨quit, _, _, _, _, sleeps, books₁, writes₁⟩ := executes_quiet_op .getQuit id run
  rw [writes₁, ← books₁]
  split at sleeps
  · exact (Quiet.done false).monitored sleeps
  obtain ⟨_, _, _, _, _, reads, books₂, writes₂⟩ := (quiet_sleep 1000).split sleeps
  obtain ⟨freqKhz, _, _, _, _, asks, books₃, writes₃⟩ := executes_quiet_op .getFreqKhz id reads
  rw [writes₂, writes₃, ← books₂, ← books₃]
  split at asks
  · exact (Quiet.done true).monitored asks
  obtain ⟨quit', _, _, _, _, tests, books₄, writes₄⟩ := executes_quiet_op .getQuit id asks
  rw [writes₄, ← books₄]
  split at tests
  · exact (Quiet.done true).monitored tests
  obtain ⟨silent, _, _, _, _, locks, books₅, writes₅⟩ := plain_streamSilent.quiet.split tests
  rw [writes₅, ← books₅]
  split at locks
  · obtain ⟨_, _, _, _, _, checks, books₆, writes₆⟩ := executes_quiet_op .lockTune id locks
    obtain ⟨_, _, _, _, checked, releases, rfl⟩ := executes_bind.mp checks
    have released : Quiet (releaseTune >>= fun _ => (pure true : Code Bool)) :=
      .bind quiet_releaseTune fun _ => .done true
    rw [writes₆, lnbWrites_append, released.lnbWrites_eq releases, List.append_nil,
      released.books_eq releases, ← books₆]
    exact executes_checkCarrier checked
  · exact (Quiet.done true).monitored locks

/-! ## Whole histories -/

/-- What may come before a tune; stream data may arrive and time may pass
between any two operations of these. -/
inductive EngineCall where
  | tune (asked : Transponder)
  | lnbOff
  | setChannel (channel : Channel)
  | monitorRound

def EngineCall.code : EngineCall → Code Unit
  | .tune asked => do
      let _ ← Engine.tune asked
      pure ()
  | .lnbOff => Engine.lnbOff
  | .setChannel channel => Engine.setChannel channel
  | .monitorRound => do
      let _ ← Engine.monitorRound
      pure ()

/-- Every call whose LNB writes go through keeps the books consistent. -/
theorem EngineCall.consistent (done : Completed signature State EngineCall Unit)
    (written : Written (lnbWrites done.trace))
    (run : machine.Executes done.before done.call.code done.trace done.value done.after)
    (valid : done.before.books.Consistent) : done.after.books.Consistent := by
  obtain ⟨call, before, trace, value, after⟩ := done
  cases call with
  | tune asked =>
      obtain ⟨first, _, _, _, ran, rest, rfl⟩ := executes_bind.mp run
      obtain ⟨rfl, _, rfl⟩ := executes_done.mp rest
      simp only [List.append_nil] at written
      rcases executes_tune ran with ⟨_, _, same⟩ | ⟨_, tuned⟩
      · exact same ▸ valid
      · exact tuned.consistent written valid
  | lnbOff =>
      exact (executes_lnbPowerDown run).consistent written valid
  | setChannel channel =>
      have quiet : Quiet (Engine.setChannel channel) := quiet_op.mpr id
      exact quiet.books_eq run ▸ valid
  | monitorRound =>
      obtain ⟨first, _, _, _, ran, rest, rfl⟩ := executes_bind.mp run
      obtain ⟨rfl, _, rfl⟩ := executes_done.mp rest
      simp only [List.append_nil] at written
      rcases executes_monitorRound ran with ⟨_, same⟩ | ⟨rc, tuned⟩
      · exact same ▸ valid
      · exact tuned.consistent written valid

theorem consistent_fresh (clock : UInt32) (genericI2c : Bool) :
    (State.fresh clock genericI2c).books.Consistent :=
  ⟨fun _ => rfl, fun powered => (Bool.noConfusion powered)⟩

/-- A fresh tune answers zero on a locked receiver. -/
theorem fresh_tune_locks : ∃ trace rc final,
    machine.Executes (.fresh 0 false) (tune someTransponder) trace rc final ∧
      (rc == 0) = true :=
  exists_executes_of_respond lockedReceiver (fun _ rc _ => rc == 0) (by decide +kernel)

/-- The tune answered zero and the pins are not as asked for. -/
def answeredDark (outcome : Trace × Int × State) : Bool :=
  outcome.2.1 == 0 && outcome.2.2.lnbPins != poweredPins someTransponder.lnbV

/-- A tune, a power down and the same tune again, on a receiver where nothing
goes wrong. -/
theorem tune_after_lnbOff_is_dark :
    ∃ calls state, machine.History EngineCall.code (.fresh 0 false) calls state ∧
      (decide (∀ done ∈ calls, Written (lnbWrites done.trace)) &&
        (machine.respond lockedReceiver (tune someTransponder) state).any answeredDark) = true :=
  exists_history_of_respondAll lockedReceiver [.tune someTransponder, .lnbOff]
    (fun calls state => decide (∀ done ∈ calls, Written (lnbWrites done.trace)) &&
      (machine.respond lockedReceiver (tune someTransponder) state).any answeredDark)
    (by decide +kernel)

end Engine

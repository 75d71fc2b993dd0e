import UsbDvbs2.Bytes.Crc
import UsbDvbs2.Concurrency.Walk
import UsbDvbs2.Stream.Intake

/-! # Lost packets

Everything the stream thread puts together from packets: the tables and ECMs of the
watched service, the tables of the extra services, the guide and the time. Neither
the continuity counter nor the checksum of a section is looked at, so a section
can go on with the bytes of another where packets are lost in between.
-/

namespace Stream

open Bytes Mpeg Camd Concurrency

/-! ## One assembler of the stream thread -/

/-- The assembler holds nothing, or what has come of the section under way; a section
that is too long for it is given up with its third byte. -/
def KeepsUp (got rest : List UInt8) (asm : Assembler) : Prop :=
  asm.data = [] ∨ rest ≠ [] ∧ asm = .of got ∧
    (got.length < 3 ∨ (got ++ rest).length ≤ assemblerSize)

/-- A section that fits is one the assembler can take. -/
theorem isSection_of_fits {sec : List UInt8} (valid : IsSection metadataSize sec)
    (fits : sec.length ≤ assemblerSize) : IsSection assemblerSize sec := { valid with fits }

/-- A section that lies in a packet fits. -/
theorem isSection_of_packet {sec behind : List UInt8} {others : List (List UInt8)}
    (valid : IsSection metadataSize sec)
    (packet : ((sec :: others).flatten ++ behind).length ≤ 184) :
    IsSection assemblerSize sec := by
  rw [List.flatten_cons, List.append_assoc, List.length_append] at packet
  refine isSection_of_fits valid ?_
  unfold assemblerSize
  omega

/-- The assembler lets a section go whose length does not fit. -/
theorem collect_long {got bytes rest : List UInt8} (present : bytes ≠ [])
    (valid : IsSection metadataSize (got ++ bytes ++ rest)) (short : got.length < 3)
    (packet : bytes.length ≤ 184) (long : assemblerSize < (got ++ bytes ++ rest).length) :
    (Assembler.of got).collect bytes = (.empty, none) ∨ (got ++ bytes).length < 3 ∧
      (Assembler.of got).collect bytes = (.of (got ++ bytes), none) := by
  have kept : bytes.take (assemblerSize - got.length) = bytes := by
    refine List.take_of_length_le ?_
    unfold assemblerSize
    omega
  rw [collect_of (by rwa [kept]), kept]
  by_cases header : 3 ≤ (got ++ bytes).length
  · have length : (Assembler.of (got ++ bytes)).expected = (got ++ bytes ++ rest).length := by
      rw [expected_of_long header, ← declared_append header rest, ← valid.whole]
    have gone : got.length < 3 ∧ assemblerSize < (Assembler.of (got ++ bytes)).expected := by
      rw [length]
      exact ⟨short, long⟩
    exact .inl (if_pos gone)
  · have still : (got ++ bytes).length < 3 := Nat.lt_of_not_le header
    have unknown : (Assembler.of (got ++ bytes)).expected = 0 := expected_eq_zero.2 still
    refine .inr ⟨still, ?_⟩
    simp only [unknown]
    rw [if_neg fun both => Nat.not_lt_zero _ both.2, if_neg fun both => both.1 rfl]

/-- More bytes of the section under way. -/
theorem keepsUp_collect {got bytes rest : List UInt8} (present : bytes ≠ []) (more : rest ≠ [])
    (valid : IsSection metadataSize (got ++ bytes ++ rest)) (packet : bytes.length ≤ 184)
    (room : got.length < 3 ∨ (got ++ bytes ++ rest).length ≤ assemblerSize) :
    ((Assembler.of got).collect bytes).2 = none ∧
      KeepsUp (got ++ bytes) rest ((Assembler.of got).collect bytes).1 := by
  by_cases fits : (got ++ bytes ++ rest).length ≤ assemblerSize
  · rw [collect_more present more (isSection_of_fits valid fits)]
    exact ⟨rfl, .inr ⟨more, rfl, .inr fits⟩⟩
  · have short := room.resolve_right fits
    rcases collect_long present valid short packet (Nat.lt_of_not_le fits) with
      dropped | ⟨still, kept⟩
    · rw [dropped]
      exact ⟨rfl, .inl rfl⟩
    · rw [kept]
      exact ⟨rfl, .inr ⟨more, rfl, .inl still⟩⟩

/-- Without a section under way a payload that starts none is skipped. -/
theorem hand_skips {asm : Assembler} (none : asm.data = []) (bytes : List UInt8) :
    asm.hand ⟨false, bytes⟩ = (asm, []) := by
  unfold Assembler.hand Assembler.feed
  cases bytes with
  | nil => rfl
  | cons byte body => simp only [if_pos none, Option.toList_none]

/-- What stands behind the pointer is in the packet too. -/
theorem length_le_of_pointed {tail bytes : List UInt8}
    (short : (pointed tail bytes).length ≤ 184) : bytes.length ≤ 184 := by
  rw [pointed, List.length_cons, List.length_append] at short
  omega

theorem hand_nothing (asm : Assembler) : asm.hand ⟨false, []⟩ = (asm, []) := rfl

section Payload

variable {got rest rest' : List UInt8} {piece : Piece} {started : List (List UInt8)}
  {asm : Assembler}

/-- What goes on with the section under way, or is skipped. -/
theorem psi_goes_on (keeps : KeepsUp got rest asm) (underway : Underway metadataSize got rest)
    (carries : Carries rest piece started rest') (short : InPacket piece)
    (plain : ¬ piece.payload.start = true) :
    (∀ sec ∈ (asm.hand piece.payload).2, sec ∈ pending got rest ++ started) ∧
      KeepsUp (piece.leaves got) rest' (asm.hand piece.payload).1 := by
  cases carries with
  | closed | opened => exact (plain rfl).elim
  | @middle bytes _ more =>
      have size : bytes.length ≤ 184 := short
      have under : bytes ++ rest' ≠ [] := by simp [more]
      rw [Piece.payload, Piece.leaves]
      rcases keeps with none | ⟨-, same, room⟩
      · rw [hand_skips none]
        exact ⟨List.forall_mem_nil _, .inl none⟩
      · by_cases nothing : bytes = []
        · subst nothing
          rw [hand_nothing, List.append_nil got]
          exact ⟨List.forall_mem_nil _, .inr ⟨more, same, room⟩⟩
        · have whole := underway.valid under
          rw [← List.append_assoc] at whole room
          obtain ⟨handed, after⟩ := keepsUp_collect nothing more whole size room
          rw [same, Assembler.hand, feed_behind nothing (underway.begun under), handed]
          exact ⟨List.forall_mem_nil _, after⟩
  | @last _ stuffing =>
      have size : (rest ++ List.replicate stuffing (0xff : UInt8)).length ≤ 184 := short
      rw [List.length_append] at size
      rw [Piece.payload, Piece.leaves]
      rcases keeps with none | ⟨some, same, room⟩
      · rw [hand_skips none]
        exact ⟨List.forall_mem_nil _, .inl none⟩
      · have fits : (got ++ rest).length ≤ assemblerSize := by
          rcases room with header | fits
          · rw [List.length_append]
            unfold assemblerSize
            omega
          · exact fits
        have whole := isSection_of_fits (underway.valid some) fits
        rw [same, Assembler.hand, feed_behind (by simp [some]) (underway.begun some),
          collect_whole some whole, pending_of_ne some]
        exact ⟨fun sec mem => List.mem_append_left _ mem, .inl rfl⟩

/-- What starts a section, whatever the assembler holds. -/
theorem psi_starts (got : List UInt8) (asm : Assembler)
    (carries : Carries rest piece started rest')
    (valid : ∀ sec ∈ started, IsSection metadataSize sec) (short : InPacket piece)
    (flagged : piece.payload.start = true) :
    (∀ sec ∈ (asm.hand piece.payload).2, sec ∈ started) ∧
      KeepsUp (piece.leaves got) rest' (asm.hand piece.payload).1 := by
  cases carries with
  | middle | last => exact nomatch flagged
  | @closed _ whole stuffing starts points =>
      obtain ⟨sec, others, rfl⟩ := List.exists_cons_of_ne_nil starts
      have size := length_le_of_pointed short
      have here := isSection_of_packet (valid sec List.mem_cons_self) size
      rw [Piece.payload, Assembler.hand, feed_closed points here]
      refine ⟨fun other mem => ?_, .inl rfl⟩
      rw [List.mem_singleton.1 mem]
      exact List.mem_cons_self
  | @opened _ whole head _ starts more points =>
      have size := length_le_of_pointed short
      rw [Piece.payload, Piece.leaves, Assembler.hand]
      cases whole with
      | nil =>
          have here := valid (head ++ rest') List.mem_cons_self
          obtain ⟨handed, after⟩ := @keepsUp_collect [] _ _ starts more here size
            (.inl (by decide))
          rw [List.flatten_nil, List.nil_append, feed_pointed points, if_neg starts, ← of_nil,
            handed]
          exact ⟨List.forall_mem_nil _, after⟩
      | cons sec others =>
          have here := isSection_of_packet (valid sec List.mem_cons_self) size
          rw [feed_closed points here]
          refine ⟨fun other mem => ?_, .inl rfl⟩
          rw [List.mem_singleton.1 mem]
          exact List.mem_cons_self

end Payload

/-- `psi_assemble` hands on what was sent, unless it goes on with a section of which
packets are missing. -/
theorem psi_sound : Sound Assembler.hand metadataSize InPacket KeepsUp
    fun asm payload => payload.start = true ∨ asm.data = [] := by
  intro got rest rest' piece started asm either underway carries valid short
  by_cases flagged : piece.payload.start = true
  · obtain ⟨handed, after⟩ := psi_starts got asm carries valid short flagged
    exact ⟨fun sec mem => List.mem_append_right _ (handed sec mem), after⟩
  · have keeps : KeepsUp got rest asm :=
      either.elim id fun anew => .inl (anew.resolve_left flagged)
    exact psi_goes_on keeps underway carries short flagged

/-- `metadata_append` hands on what was sent, unless a section starts or goes on where
packets in front of it are missing. -/
theorem metadata_sound : Sound metadataHand metadataSize InPacket Tracks
    fun asm payload => asm.data.length ≤ metadataSize ∧ payload.start = true ∧
      (asm.data = [] ∨ payload.bytes.head? = some 0) := by
  refine @Faithful.sound _ _ _ _ _ metadata_faithful _ ?_
  intro rest rest' piece started asm ⟨fits, flagged, clean⟩ carries valid short
  obtain ⟨handed, after⟩ := metadata_resyncs fits carries valid flagged short
  have nothing : metadataStale asm rest = some [] := by
    refine if_neg fun both => clean.elim both.2 fun pointer => ?_
    cases carries with
    | middle | last => exact nomatch flagged
    | closed starts points | opened starts more points =>
        have zero : UInt8.ofNat rest.length = 0 := Option.some.inj pointer
        have length : (UInt8.ofNat rest.length).toNat = rest.length :=
          UInt8.toNat_ofNat_of_lt points
        rw [zero] at length
        exact both.1 (List.length_eq_zero_iff.1 length.symm)
  simp only [nothing, Option.getD_some, List.nil_append] at handed
  exact ⟨flagged, handed, after⟩

/-! ## Any of the assemblers -/

/-- What an assembler does with a payload. -/
def Tap.hand : Tap → Assembler → Payload → Assembler × List (List UInt8)
  | .eit | .time => metadataHand
  | _ => Assembler.hand

/-- What an assembler that is in step with its pid holds. -/
def Tap.Holds : Tap → List UInt8 → List UInt8 → Assembler → Prop
  | .eit | .time => Tracks
  | _ => KeepsUp

/-- The assembler keeps nothing of what it has, or has nothing and skips the payload.
The assemblers of the guide and the time skip nothing, and complete what they have
with the bytes in front of the first section start. -/
def Tap.StartsOver : Tap → Assembler → Payload → Prop
  | .eit, asm, payload | .time, asm, payload =>
      payload.start = true ∧ (asm.data = [] ∨ payload.bytes.head? = some 0)
  | _, asm, payload => payload.start = true ∨ asm.data = []

instance (tap : Tap) (asm : Assembler) (payload : Payload) :
    Decidable (tap.StartsOver asm payload) :=
  match tap with
  | .eit | .time => inferInstanceAs (Decidable (_ ∧ _))
  | .ecm | .pat | .pmt | .extraPat _ | .extraPmt _ => inferInstanceAs (Decidable (_ ∨ _))

def Tap.Fits : Tap → Assembler → Prop
  | .eit, asm | .time, asm => asm.data.length ≤ metadataSize
  | _, _ => True

theorem Tap.take_eq (tap : Tap) (asm : Assembler) (packet : Packet) :
    tap.take asm packet = (packet.payload?.map (tap.hand asm)).getD (asm, []) := by
  cases tap with
  | eit | time =>
      simp only [take, metadataPacket, metadataFeedPacket]
      cases packet.payload? <;> rfl
  | ecm | pat | pmt | extraPat | extraPmt =>
      simp only [take, psiAssemble_eq]
      cases packet.payload? <;> rfl

theorem Tap.Fits.hand {tap : Tap} {asm : Assembler} (fits : tap.Fits asm) (payload : Payload) :
    tap.Fits (tap.hand asm payload).1 := by
  cases tap with
  | eit | time => exact (metadataFeed_eq fits payload).2
  | ecm | pat | pmt | extraPat | extraPmt => trivial

theorem Tap.sound (tap : Tap) : Sound tap.hand metadataSize InPacket tap.Holds
    fun asm payload => tap.Fits asm ∧ tap.StartsOver asm payload := by
  intro got rest rest' piece started asm either underway carries valid short
  cases tap with
  | eit | time => exact metadata_sound either underway carries valid short
  | ecm | pat | pmt | extraPat | extraPmt =>
      exact psi_sound (either.imp_right And.right) underway carries valid short

/-! ## Packets received and lost -/

inductive IntakeEvent where
  -- a packet on the carrier, which the thread reads or never sees
  | sent (packet : Packet) (received : Bool)
  -- the stream thread between two packets
  | startThread
  | copyGroup (group : Group)
  | adopt (epoch : UInt32)
  | resolve
  | refreshKeys
  | refreshExtra (slot : Fin maxExtraServices) (wanted : Wanted)
  -- the command thread and the client's worker
  | clearEit
  | camd (client : Option Client)

def Intake.withReader (intake : Intake) (reader : Reader) : Intake :=
  { intake with work := { intake.work with reader } }

def Intake.next (intake : Intake) : IntakeEvent → Intake
  | .sent packet received => if received then intake.feed packet else intake
  | .startThread => { intake.withReader .fresh with extras := fun _ => .fresh }
  | .copyGroup group => intake.withReader { intake.work.reader with here := group }
  | .adopt epoch => intake.withReader (intake.work.reader.adopt epoch)
  | .resolve => intake.withReader intake.work.reader.resolve
  | .refreshKeys => intake.withReader (intake.work.reader.refresh intake.work.camd)
  | .refreshExtra slot wanted =>
      { intake with
        extras := fun other =>
          if other = slot then (intake.extras slot).refresh wanted else intake.extras other }
  | .clearEit => { intake with eit := .empty }
  | .camd client => { intake with work := { intake.work with camd := client } }

/-- Beside every assembler stands the pid that it is in step with: the packet it was
given last was the latest one of that pid, and it has been left alone since. -/
structure Reception where
  intake : Intake
  current : Tap → Option UInt16

def Reception.next (reception : Reception) (event : IntakeEvent) : Reception where
  intake := reception.intake.next event
  current tap :=
    match event with
    | .sent packet received =>
        if packet.payload? = none then reception.current tap
        else if received = true ∧ reception.intake.hears packet tap then some packet.pid
        else if reception.current tap = some packet.pid then none
        else reception.current tap
    | other =>
        if (reception.intake.next other).assembler tap = reception.intake.assembler tap then
          reception.current tap
        else none

/-- The engine has started, with a client or without. -/
def Reception.start (client : Option Client) : Reception where
  intake := ⟨⟨.fresh, client, [], []⟩, fun _ => .fresh, .empty, .empty⟩
  current := fun _ => none

def IntakeEvent.received : IntakeEvent → Option Packet
  | .sent packet true => some packet
  | _ => none

def IntakeEvent.payloadOn (pid : UInt16) : IntakeEvent → Option Payload
  | .sent packet _ => if packet.pid = pid then packet.payload? else none
  | _ => none

theorem IntakeEvent.sent_of_payloadOn {pid : UInt16} {event : IntakeEvent} {payload : Payload}
    (has : event.payloadOn pid = some payload) : ∃ packet received,
      event = .sent packet received ∧ packet.pid = pid ∧ packet.payload? = some payload := by
  cases event with
  | sent packet received =>
      rw [payloadOn] at has
      split at has
      · exact ⟨packet, received, rfl, ‹_›, has⟩
      · exact nomatch has
  | startThread | copyGroup | adopt | resolve | refreshKeys | refreshExtra | clearEit | camd =>
      exact nomatch has

theorem IntakeEvent.sent_of_received {event : IntakeEvent} {packet : Packet}
    (mem : packet ∈ event.received) : event = .sent packet true := by
  cases event with
  | sent other received =>
      cases received with
      | false => exact nomatch mem
      | true => exact congrArg (IntakeEvent.sent · true) (Option.some.inj mem)
  | startThread | copyGroup | adopt | resolve | refreshKeys | refreshExtra | clearEit | camd =>
      exact nomatch mem

/-- The packets of a pid, received or lost, are the beginning of a packetization of
sections with checksums. -/
structure Transmits (pid : UInt16) (events : List IntakeEvent) (sections : List (List UInt8)) :
    Prop where
  valid : ∀ sec ∈ sections, IsSection metadataSize sec ∧ CrcValid sec
  carried : ∃ pieces, Conforms [] sections pieces ∧
    events.filterMap (·.payloadOn pid) <+: pieces.map Piece.payload

/-- Every assembler that the packet goes to was given the packet of its pid in front
of it, or starts over. -/
def Reception.Joins (reception : Reception) (packet : Packet) : Prop :=
  ∀ tap, reception.intake.hears packet tap → reception.current tap = some packet.pid ∨
    ∀ payload ∈ packet.payload?, tap.StartsOver (reception.intake.assembler tap) payload

/-! ### One event -/

section Event

variable {reception : Reception} {pid : UInt16} {got rest : List UInt8}

/-- The assemblers that are in step with the pid hold what has come of its section. -/
structure Reception.InStep (reception : Reception) (pid : UInt16) (got rest : List UInt8) :
    Prop where
  holds : ∀ tap, reception.current tap = some pid →
    tap.Holds got rest (reception.intake.assembler tap)
  fits : ∀ tap : Tap, tap.Fits (reception.intake.assembler tap)

theorem Intake.next_sent (intake : Intake) (packet : Packet) (received : Bool) (tap : Tap) :
    (intake.next (.sent packet received)).assembler tap =
      if received = true ∧ intake.hears packet tap then
        (tap.take (intake.assembler tap) packet).1
      else intake.assembler tap := by
  cases received with
  | false => exact (if_neg fun both => Bool.false_ne_true both.1).symm
  | true =>
      simp only [true_and]
      exact intake.feed_assembler packet tap

/-- A packet without a payload leaves all assemblers as they are. -/
theorem Intake.next_blank {packet : Packet} (blank : packet.payload? = none) (intake : Intake)
    (received : Bool) (tap : Tap) :
    (intake.next (.sent packet received)).assembler tap = intake.assembler tap := by
  rw [next_sent, tap.take_eq, blank]
  exact ite_self _

/-- Whatever happens, no assembler has more than its buffer holds. -/
theorem Intake.next_fits {intake : Intake} (fits : ∀ tap : Tap, tap.Fits (intake.assembler tap))
    (event : IntakeEvent) (tap : Tap) : tap.Fits ((intake.next event).assembler tap) := by
  cases event with
  | sent packet received =>
      rw [next_sent]
      split
      · rw [tap.take_eq]
        cases packet.payload? with
        | none => exact fits tap
        | some payload => exact (fits tap).hand payload
      · exact fits tap
  | clearEit =>
      cases tap with
      | eit => exact Nat.zero_le _
      | time => exact fits .time
      | ecm | pat | pmt | extraPat | extraPmt => trivial
  | startThread | copyGroup | adopt | resolve | refreshKeys | refreshExtra | camd =>
      cases tap with
      | eit => exact fits .eit
      | time => exact fits .time
      | ecm | pat | pmt | extraPat | extraPmt => trivial

/-- What is in step already stays so, unless its pid has a payload. -/
theorem Reception.InStep.of_still (inStep : reception.InStep pid got rest) {event : IntakeEvent}
    (still : ∀ tap, (reception.next event).current tap = some pid →
      reception.current tap = some pid ∧
        (reception.next event).intake.assembler tap = reception.intake.assembler tap) :
    (reception.next event).InStep pid got rest := by
  refine ⟨fun tap here => ?_, Intake.next_fits inStep.fits event⟩
  obtain ⟨before, same⟩ := still tap here
  rw [same]
  exact inStep.holds tap before

theorem Reception.InStep.quiet (inStep : reception.InStep pid got rest) {event : IntakeEvent}
    (none : event.payloadOn pid = none) : (reception.next event).InStep pid got rest := by
  refine inStep.of_still fun tap here => ?_
  cases event with
  | sent packet received =>
      simp only [next] at here ⊢
      by_cases blank : packet.payload? = Option.none
      · rw [if_pos blank] at here
        exact ⟨here, reception.intake.next_blank blank received tap⟩
      have other : packet.pid ≠ pid := by
        intro same
        simp only [IntakeEvent.payloadOn, if_pos same] at none
        exact blank none
      rw [if_neg blank] at here
      rw [Intake.next_sent]
      by_cases hears : received = true ∧ reception.intake.hears packet tap
      · rw [if_pos hears] at here
        exact (other (Option.some.inj here)).elim
      · rw [if_neg hears] at here ⊢
        split at here
        · exact nomatch here
        · exact ⟨here, rfl⟩
  | startThread | copyGroup | adopt | resolve | refreshKeys | refreshExtra | clearEit | camd =>
      simp only [next] at here ⊢
      split at here
      · exact ⟨here, ‹_›⟩
      · exact nomatch here

/-- A payload of the pid: what is given it and may use it acts on what was sent, and is
in step; the others are not. -/
theorem Reception.InStep.payload (inStep : reception.InStep pid got rest) {packet : Packet}
    {received : Bool} (ours : packet.pid = pid) {piece : Piece}
    {started : List (List UInt8)} {rest' : List UInt8}
    (there : packet.payload? = some piece.payload) (carries : Carries rest piece started rest')
    (underway : Underway metadataSize got rest)
    (valid : ∀ sec ∈ started, IsSection metadataSize sec)
    (joins : received = true → reception.Joins packet) :
    (reception.next (.sent packet received)).InStep pid (piece.leaves got) rest' ∧
      (received = true → ∀ tap, ∀ sec ∈ reception.intake.acts packet tap,
        sec ∈ pending got rest ++ started) := by
  have some : ¬ packet.payload? = none := by
    rw [there]
    exact Option.some_ne_none _
  have take : ∀ tap : Tap, tap.take (reception.intake.assembler tap) packet =
      tap.hand (reception.intake.assembler tap) piece.payload := by
    intro tap
    rw [tap.take_eq, there]
    rfl
  have heard : received = true → ∀ tap, reception.intake.hears packet tap →
      (∀ sec ∈ (tap.hand (reception.intake.assembler tap) piece.payload).2,
        sec ∈ pending got rest ++ started) ∧
          tap.Holds (piece.leaves got) rest'
            (tap.hand (reception.intake.assembler tap) piece.payload).1 := by
    intro seen tap hears
    refine tap.sound ?_ underway carries valid (payload?_length there)
    rcases joins seen tap hears with current | anew
    · exact .inl (inStep.holds tap (current.trans (congrArg Option.some ours)))
    · exact .inr ⟨inStep.fits tap, anew _ there⟩
  refine ⟨⟨fun tap here => ?_, Intake.next_fits inStep.fits _⟩, fun seen tap sec mem => ?_⟩
  · simp only [next, if_neg some] at here ⊢
    rw [Intake.next_sent]
    by_cases hears : received = true ∧ reception.intake.hears packet tap
    · rw [if_pos hears, take]
      exact (heard hears.1 tap hears.2).2
    · rw [if_neg hears, ours] at here
      split at here
      · contradiction
      · exact absurd here ‹_›
  · rw [Intake.acts] at mem
    split at mem
    · rw [take] at mem
      exact (heard seen tap ‹_›).1 sec mem
    · contradiction

/-- Nothing is acted on at a packet without a payload. -/
theorem Intake.acts_blank {packet : Packet} (blank : packet.payload? = none) (intake : Intake)
    (tap : Tap) : intake.acts packet tap = [] := by
  rw [acts, tap.take_eq, blank]
  exact ite_self _

end Event

/-! ### A run -/

/-- From a state that is in step: as long as every packet of the pid joins, only the
section under way and those that follow are acted on. -/
theorem acts_of_inStep {pid : UInt16} {events : List IntakeEvent} {reception : Reception}
    {got rest : List UInt8} {sections : List (List UInt8)} {pieces : List Piece}
    (inStep : reception.InStep pid got rest) (underway : Underway metadataSize got rest)
    (conforms : Conforms rest sections pieces)
    (valid : ∀ sec ∈ sections, IsSection metadataSize sec)
    (carried : events.filterMap (·.payloadOn pid) <+: pieces.map Piece.payload)
    (joins : ∀ moved ∈ moves Reception.next reception events, ∀ packet ∈ moved.event.received,
      packet.pid = pid → moved.before.Joins packet) :
    ∀ moved ∈ moves Reception.next reception events, ∀ packet ∈ moved.event.received,
      packet.pid = pid → ∀ tap, ∀ sec ∈ moved.before.intake.acts packet tap,
        sec ∈ pending got rest ++ sections := by
  induction events generalizing reception got rest sections pieces with
  | nil => exact List.forall_mem_nil _
  | cons event events ih =>
      rw [moves, List.forall_mem_cons] at joins ⊢
      obtain ⟨here, later⟩ := joins
      cases has : event.payloadOn pid with
      | none =>
          rw [List.filterMap_cons_none has] at carried
          refine ⟨fun packet mem ours tap => ?_,
            ih (inStep.quiet has) underway conforms valid carried later⟩
          obtain rfl := IntakeEvent.sent_of_received mem
          have blank : packet.payload? = none := by
            rwa [IntakeEvent.payloadOn, if_pos ours] at has
          rw [Intake.acts_blank blank]
          exact List.forall_mem_nil _
      | some payload =>
          rw [List.filterMap_cons_some has] at carried
          obtain ⟨piece, started, after, rest', pieces', rfl, carries, conforms', carried', rfl⟩ :=
            conforms.of_prefix carried
          have starts : ∀ sec ∈ started, IsSection metadataSize sec := fun sec mem =>
            valid sec (List.mem_append_left _ mem)
          have follows : ∀ sec ∈ after, IsSection metadataSize sec := fun sec mem =>
            valid sec (List.mem_append_right _ mem)
          obtain ⟨packet, received, rfl, ours, there⟩ := IntakeEvent.sent_of_payloadOn has
          obtain ⟨still, acted⟩ := inStep.payload ours there carries underway starts
            fun read : received = true => here packet (by rw [read]; rfl) ours
          constructor
          · intro other mem _ tap sec act
            obtain ⟨rfl, read⟩ := IntakeEvent.sent.inj (IntakeEvent.sent_of_received mem)
            rw [← List.append_assoc]
            exact List.mem_append_left _ (acted read tap sec act)
          · intro moved mem other isThere same tap sec act
            have found := ih still (carries.underway underway starts) conforms' follows carried'
              later moved mem other isThere same tap sec act
            rw [← List.append_assoc, ← carries.completes_pending, List.append_assoc]
            exact List.mem_append_right _ found

/-- In every run, for every pid that carries a packetization of sections, of which any
packets may be lost: if every packet of the pid that is read joins, only sections
that were transmitted are acted on. -/
theorem acts_transmitted {client : Option Client} {events : List IntakeEvent} {pid : UInt16}
    {sections : List (List UInt8)} (transmits : Transmits pid events sections)
    (joins : ∀ moved ∈ moves Reception.next (.start client) events,
      ∀ packet ∈ moved.event.received, packet.pid = pid → moved.before.Joins packet) :
    ∀ moved ∈ moves Reception.next (.start client) events,
      ∀ packet ∈ moved.event.received, packet.pid = pid →
        ∀ tap, ∀ sec ∈ moved.before.intake.acts packet tap, sec ∈ sections := by
  obtain ⟨valid, pieces, conforms, carried⟩ := transmits
  have inStep : (Reception.start client).InStep pid [] [] := by
    refine ⟨fun tap => nofun, fun tap => ?_⟩
    cases tap with
    | eit | time => exact Nat.zero_le _
    | ecm | pat | pmt | extraPat | extraPmt => trivial
  have acted := acts_of_inStep inStep (.nil []) conforms (fun sec mem => (valid sec mem).1)
    carried joins
  rwa [pending_nil, List.nil_append] at acted

/-! ### Two versions of a table -/

/-- A PMT of service 1 that gives one pid to clock and video. -/
def versionBody (version pid : UInt8) : List UInt8 :=
  [0x02, 0xb0, 0x12, 0x00, 0x01, version, 0x00, 0x00, 0xe1, pid, 0xf0, 0x00,
    0x1b, 0xe1, pid, 0xf0, 0x00]

def versionOf (version pid : UInt8) : List UInt8 :=
  versionBody version pid ++ crcBytes (crc32 (versionBody version pid))

/-- The table up to its stream loop, behind an adaptation field. -/
def versionHead (counter version pid : UInt8) : Packet where
  bytes := [0x47, 0x41, 0x00, 0x30 + counter, 170, 0x00] ++ .replicate 169 0xff ++
    0 :: (versionOf version pid).take 12
  size := rfl

/-- The stream loop and the checksum. -/
def versionTail (counter version pid : UInt8) : Packet where
  bytes := [0x47, 0x01, 0x00, 0x10 + counter] ++
    ((versionOf version pid).drop 12 ++ .replicate 175 0xff)
  size := rfl

/-- The version in force and the one that follows. -/
def oldVersion : List UInt8 := versionOf 0xc1 0x01

def newVersion : List UInt8 := versionOf 0xc3 0x02

/-- Service 1 is watched while the version changes. -/
def versionChange (received : List Bool) : List IntakeEvent :=
  .copyGroup ⟨1, 0x100, noPid, noPid, noPid, 0⟩ ::
    .zipWith .sent [versionHead 0 0xc1 0x01, versionTail 1 0xc1 0x01, versionHead 2 0xc3 0x02,
      versionTail 3 0xc3 0x02] received

instance (reception : Reception) (packet : Packet) : Decidable (reception.Joins packet) :=
  inferInstanceAs (Decidable (∀ _, _ → _ ∨ ∀ _ ∈ _, _))

/-- A section in two packets. -/
theorem conforms_halves {sec : List UInt8} (long : 12 < sec.length)
    {sections : List (List UInt8)} {pieces : List Piece} (conforms : Conforms [] sections pieces) :
    Conforms [] (sec :: sections)
      (.opened [] [] (sec.take 12) :: .last (sec.drop 12) 175 :: pieces) := by
  have starts : sec.take 12 ≠ [] := by
    refine List.length_pos_iff.1 ?_
    rw [List.length_take]
    omega
  have more : sec.drop 12 ≠ [] := by
    refine List.length_pos_iff.1 ?_
    rw [List.length_drop]
    omega
  have opens : Carries [] (.opened [] [] (sec.take 12)) [sec.take 12 ++ sec.drop 12]
      (sec.drop 12) := .opened starts more (by decide)
  rw [List.take_append_drop] at opens
  exact .next opens (.next .last conforms)

theorem versionChange_transmits {received : List Bool} (four : received.length = 4) :
    Transmits 0x100 (versionChange received) [oldVersion, newVersion] := by
  have old : 12 < oldVersion.length := by decide
  have new : 12 < newVersion.length := by decide
  have pieces := conforms_halves old (conforms_halves new .done)
  refine ⟨fun sec mem => ?_, _, pieces, ?_⟩
  · rw [List.mem_cons, List.mem_singleton] at mem
    rcases mem with rfl | rfl
    · exact ⟨⟨by decide, by decide +kernel, by decide, by decide⟩, crcValid_append _⟩
    · exact ⟨⟨by decide, by decide +kernel, by decide, by decide⟩, crcValid_append _⟩
  · obtain ⟨one, two, three, other, rfl⟩ := List.length_eq_four.1 four
    revert one two three other
    decide +kernel

/-- The head of the new version is lost: its tail is skipped. -/
theorem acts_transmitted_skipped :
    (moves Reception.next (.start none) (versionChange [true, true, false, true])).length = 5 ∧
      ∀ moved ∈ moves Reception.next (.start none) (versionChange [true, true, false, true]),
        ∀ packet ∈ moved.event.received, packet.pid = 0x100 →
          ∀ tap, ∀ sec ∈ moved.before.intake.acts packet tap, sec ∈ [oldVersion, newVersion] :=
  ⟨rfl, acts_transmitted (versionChange_transmits rfl) (by decide +kernel)⟩

/-- The two packets in the middle are lost: the engine acts on a PMT of the service
that has the clock of the old version and the video of the new one. -/
theorem acts_spliced : ∃ events sections, Transmits 0x100 events sections ∧
    ∃ moved ∈ moves Reception.next (.start none) events, ∃ packet ∈ moved.event.received,
      packet.pid = 0x100 ∧ ∃ sec ∈ moved.before.intake.acts packet .pmt,
        isPmtOf sec moved.before.intake.work.reader.here.svc = true ∧ sec ∉ sections := by
  refine ⟨versionChange [true, false, false, true], [oldVersion, newVersion],
    versionChange_transmits rfl, _, List.getElem_mem (n := 4) (by decide +kernel),
    versionTail 3 0xc3 0x02, by decide +kernel, by decide +kernel,
    oldVersion.take 12 ++ newVersion.drop 12, by decide +kernel, by decide +kernel,
    by decide +kernel⟩

end Stream

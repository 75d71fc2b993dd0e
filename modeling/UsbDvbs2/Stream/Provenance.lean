import UsbDvbs2.Stream.Reader

/-! # Where the learned values come from

`Derived` says that everything the stream thread has learned was read, for one
given channel, out of given sections. Every packet keeps it, as long as the
thread works on that channel; more sections do no harm.
-/

namespace Stream

open Bytes Camd

/-- A pid the service's table names as one of its streams. -/
def NamesStream (sec : List UInt8) (svc pid : UInt16) : Prop :=
  isPmtOf sec svc = true ∧ ∃ pos ∈ streamEntries sec, pid = be13 sec (pos + 1)

section Sources

variable (group : Group) (sections : List (List UInt8))

def PmtFrom (pid : UInt16) : Prop :=
  pid = noPid ∨ ∃ sec ∈ sections, pid = patLookupPmtPid sec group.svc

def PidsFrom (pids : AvPids) : Prop :=
  ∃ sec ∈ sections, isPmtOf sec group.svc = true ∧ pids = pmtLookupStreamPids sec group.svc

def VideoFrom (pid : UInt16) : Prop :=
  pid = group.vpid ∨ ∃ sec ∈ sections, isPmtOf sec group.svc = true ∧
    pid = (pmtLookupStreamPids sec group.svc).video

def TeletextFrom (pid : UInt16) : Prop :=
  pid = noPid ∨ pid = group.ttxpid ∨ ∃ sec ∈ sections, isPmtOf sec group.svc = true ∧
    ∃ pos ∈ streamEntries sec, isTeletext sec pos = true ∧ pid = be13 sec (pos + 1)

def StreamsFrom (pids : List UInt16) : Prop :=
  ∀ pid ∈ pids, ∃ sec ∈ sections, NamesStream sec group.svc pid

def CandidatesFrom (candidates : List Candidate) : Prop :=
  ∃ sec ∈ sections, candidates = candidatesOf sec group.svc group.hintCaid

/-- All that is learned of a channel was read for it out of the sections. -/
structure Derived (reader : Reader) (handed : List (UInt16 × List Candidate)) : Prop where
  pmt : PmtFrom group sections reader.learnedPmt
  pids : reader.tablePids = true → PidsFrom group sections reader.learned
  teletext : TeletextFrom group sections reader.learnedTtx
  streams : StreamsFrom group sections reader.streamPids
  scrambled : ∀ scrambled, reader.reportedCa = some scrambled →
    ∃ candidates, CandidatesFrom group sections candidates ∧ scrambled = decide (candidates ≠ [])
  biss : ∀ pid ∈ reader.bissPids, pid = noPid ∨ VideoFrom group sections pid ∨
    ∃ sec ∈ sections, NamesStream sec group.svc pid
  handed : ∀ entry ∈ handed, entry.1 = group.svc ∧ CandidatesFrom group sections entry.2

/-- The iteration works on the channel, with what was learned filled in. -/
structure WorksOn (here : Group) : Prop where
  svc : here.svc = group.svc
  hint : here.hintCaid = group.hintCaid
  video : VideoFrom group sections here.vpid
  teletext : TeletextFrom group sections here.ttxpid

end Sources

variable {group : Group} {sections more : List (List UInt8)}

section More

variable (grows : ∀ sec ∈ sections, sec ∈ more)

include grows

theorem PmtFrom.mono {pid : UInt16} (source : PmtFrom group sections pid) :
    PmtFrom group more pid :=
  source.imp_right fun ⟨sec, member, same⟩ => ⟨sec, grows sec member, same⟩

theorem PidsFrom.mono {pids : AvPids} (source : PidsFrom group sections pids) :
    PidsFrom group more pids :=
  let ⟨sec, member, same⟩ := source
  ⟨sec, grows sec member, same⟩

theorem VideoFrom.mono {pid : UInt16} (source : VideoFrom group sections pid) :
    VideoFrom group more pid :=
  source.imp_right fun ⟨sec, member, same⟩ => ⟨sec, grows sec member, same⟩

theorem TeletextFrom.mono {pid : UInt16} (source : TeletextFrom group sections pid) :
    TeletextFrom group more pid :=
  source.imp_right fun source =>
    source.imp_right fun ⟨sec, member, same⟩ => ⟨sec, grows sec member, same⟩

theorem StreamsFrom.mono {pids : List UInt16} (source : StreamsFrom group sections pids) :
    StreamsFrom group more pids := fun pid member =>
  let ⟨sec, inside, names⟩ := source pid member
  ⟨sec, grows sec inside, names⟩

theorem CandidatesFrom.mono {candidates : List Candidate}
    (source : CandidatesFrom group sections candidates) : CandidatesFrom group more candidates :=
  let ⟨sec, member, same⟩ := source
  ⟨sec, grows sec member, same⟩

theorem Derived.mono {reader : Reader} {handed : List (UInt16 × List Candidate)}
    (derived : Derived group sections reader handed) : Derived group more reader handed where
  pmt := derived.pmt.mono grows
  pids isTable := (derived.pids isTable).mono grows
  teletext := derived.teletext.mono grows
  streams := derived.streams.mono grows
  scrambled scrambled reported :=
    let ⟨candidates, source, same⟩ := derived.scrambled scrambled reported
    ⟨candidates, source.mono grows, same⟩
  biss pid member := (derived.biss pid member).imp_right fun source =>
    source.imp (·.mono grows) fun ⟨sec, inside, names⟩ => ⟨sec, grows sec inside, names⟩
  handed entry member :=
    have given := derived.handed entry member
    ⟨given.1, given.2.mono grows⟩

theorem WorksOn.mono {here : Group} (works : WorksOn group sections here) :
    WorksOn group more here :=
  ⟨works.svc, works.hint, works.video.mono grows, works.teletext.mono grows⟩

end More

/-- The work of an iteration stays with its channel. -/
structure StaysWith (group : Group) (work : Work) : Prop where
  derived : Derived group work.sections work.reader work.handed
  works : WorksOn group work.sections work.reader.here

/-! ## One section -/

variable {work : Work} {sec : List UInt8}

theorem StaysWith.logged (stays : StaysWith group work) (sec : List UInt8) :
    StaysWith group { work with sections := work.sections ++ [sec] } where
  derived := stays.derived.mono fun _ member => List.mem_append_left _ member
  works := stays.works.mono fun _ member => List.mem_append_left _ member

theorem mem_logged (work : Work) (sec : List UInt8) : sec ∈ work.sections ++ [sec] :=
  List.mem_append_right _ List.mem_cons_self

theorem StaysWith.pat (stays : StaysWith group work) (sec : List UInt8) :
    StaysWith group (work.pat sec) := by
  have logged := stays.logged sec
  by_cases listed : noPid ≤ work.reader.here.pmt
  · simp only [Work.pat, if_pos listed]
    refine ⟨{ logged.derived with pmt := ?_ }, { logged.works with }⟩
    exact .inr ⟨sec, mem_logged work sec, by rw [stays.works.svc]⟩
  · simp only [Work.pat, if_neg listed]
    exact logged

theorem StaysWith.readPids (stays : StaysWith group work) (member : sec ∈ work.sections) :
    StaysWith group { work with reader := work.reader.readPids sec } := by
  by_cases table : isPmtOf sec work.reader.here.svc = true
  · have ours : isPmtOf sec group.svc = true := stays.works.svc ▸ table
    have read : PidsFrom group work.sections (pmtLookupStreamPids sec work.reader.here.svc) :=
      ⟨sec, member, ours, by rw [stays.works.svc]⟩
    simp only [Reader.readPids, if_pos table]
    split
    · refine ⟨{ stays.derived with pids := fun _ => read }, { stays.works with video := ?_ }⟩
      exact .inr ⟨sec, member, ours, by rw [stays.works.svc]⟩
    · exact ⟨{ stays.derived with }, { stays.works with }⟩
  · simp only [Reader.readPids, if_neg table]
    exact stays

theorem mem_bissPidsOf {vpid pid : UInt16} {streamPids : List UInt16}
    (member : pid ∈ bissPidsOf vpid streamPids) : pid = noPid ∨ pid = vpid ∨ pid ∈ streamPids := by
  rcases List.mem_append.mp member with named | last
  · rcases List.mem_append.mp (List.mem_of_mem_take named) with video | stream
    · split at video
      · exact .inr (.inl (List.mem_singleton.mp video))
      · exact (List.not_mem_nil video).elim
    · exact .inr (.inr (List.mem_filter.mp stream).1)
  · exact .inl (List.mem_singleton.mp last)

theorem StaysWith.handOver (stays : StaysWith group work) (member : sec ∈ work.sections) :
    StaysWith group (work.handOver sec) := by
  by_cases first : work.reader.reportedCa = none
  · have ours : CandidatesFrom group work.sections
        (candidatesOf sec work.reader.here.svc work.reader.here.hintCaid) :=
      ⟨sec, member, by rw [stays.works.svc, stays.works.hint]⟩
    simp only [Work.handOver, if_pos first]
    refine ⟨{ stays.derived with scrambled := ?_, biss := ?_, handed := ?_ },
      { stays.works with }⟩
    · intro scrambled reported
      exact ⟨_, ours, (Option.some.inj reported).symm⟩
    · intro pid inside
      rcases mem_bissPidsOf inside with none | video | stream
      · exact .inl none
      · exact .inr (.inl (video ▸ stays.works.video))
      · exact .inr (.inr (stays.derived.streams pid stream))
    · intro entry inside
      rcases List.mem_append.mp inside with before | now
      · exact stays.derived.handed entry before
      · cases List.mem_singleton.mp now
        exact ⟨stays.works.svc, ours⟩
  · simp only [Work.handOver, if_neg first]
    exact stays

/-- The stream loop hands back pids of its own entries, or what it was given. -/
theorem selectStreams_sources (sec : List UInt8) (positions : List Nat) (teletext : UInt16)
    (found : List UInt16) :
    ((selectStreams sec positions teletext found).1 = teletext ∨
      ∃ pos ∈ positions, isTeletext sec pos = true ∧
        (selectStreams sec positions teletext found).1 = be13 sec (pos + 1)) ∧
    ∀ pids, (selectStreams sec positions teletext found).2 = some pids →
      ∀ pid ∈ pids, pid ∈ found ∨ ∃ pos ∈ positions, pid = be13 sec (pos + 1) := by
  induction positions generalizing teletext found with
  | nil =>
      refine ⟨.inl rfl, fun pids same pid member => .inl ?_⟩
      cases same
      exact member
  | cons pos rest ih =>
      rw [selectStreams]
      by_cases fits : entryFits sec pos = true
      · rw [if_pos fits]
        obtain ⟨named, streams⟩ := ih (if isTeletext sec pos then be13 sec (pos + 1) else teletext)
          (if found.length < maxProgramPids then found ++ [be13 sec (pos + 1)] else found)
        constructor
        · rcases named with given | ⟨later, inside, isText, same⟩
          · rw [given]
            by_cases isText : isTeletext sec pos = true
            · exact .inr ⟨pos, List.mem_cons_self, isText, if_pos isText⟩
            · exact .inl (if_neg isText)
          · exact .inr ⟨later, List.mem_cons_of_mem _ inside, isText, same⟩
        · intro pids same pid member
          rcases streams pids same pid member with before | ⟨later, inside, equal⟩
          · split at before
            · rcases List.mem_append.mp before with known | new
              · exact .inl known
              · exact .inr ⟨pos, List.mem_cons_self, List.mem_singleton.mp new⟩
            · exact .inl before
          · exact .inr ⟨later, List.mem_cons_of_mem _ inside, equal⟩
      · rw [if_neg fits]
        exact ⟨.inl rfl, fun _ impossible => nomatch impossible⟩

/-- A pid the service's table names, for a stream or for the clock. -/
def Names (sec : List UInt8) (svc pid : UInt16) : Prop :=
  NamesStream sec svc pid ∨ isPmtOf sec svc = true ∧ pid = be13 sec 8

/-- The pids that are handed back are named by the table, apart from streams that
were known. -/
theorem sendSelectedPmt_names {svc : UInt16} (known : Selected)
    (reads : isPmtOf sec svc = true ∧ programInfoEnd sec ≤ sec.length - 4) :
    Names sec svc (sendSelectedPmt sec svc known).pcr ∧
      ∀ pid ∈ (sendSelectedPmt sec svc known).streams, pid ∈ known.streams ∨ Names sec svc pid := by
  have streams := (selectStreams_sources sec (streamEntries sec) known.teletext []).2
  rw [sendSelectedPmt, if_pos reads]
  refine ⟨.inr ⟨reads.1, rfl⟩, fun pid member => ?_⟩
  cases found : (selectStreams sec (streamEntries sec) known.teletext []).2 with
  | none =>
      simp only [found] at member
      exact .inl member
  | some pids =>
      simp only [found] at member
      rcases streams pids found pid member with impossible | ⟨pos, isEntry, same⟩
      · exact (List.not_mem_nil impossible).elim
      · exact .inr (.inl ⟨reads.1, pos, isEntry, same⟩)

theorem StaysWith.selectPids (stays : StaysWith group work) (member : sec ∈ work.sections) :
    StaysWith group { work with reader := work.reader.selectPids sec } := by
  by_cases selects : isPmtOf sec work.reader.here.svc = true ∧
      programInfoEnd sec ≤ sec.length - 4
  · have ours : isPmtOf sec group.svc = true := stays.works.svc ▸ selects.1
    obtain ⟨named, streams⟩ := selectStreams_sources sec (streamEntries sec)
      work.reader.here.ttxpid []
    have teletext : TeletextFrom group work.sections
        (selectStreams sec (streamEntries sec) work.reader.here.ttxpid []).1 := by
      rcases named with given | ⟨pos, inside, isText, same⟩
      · rw [given]
        exact stays.works.teletext
      · exact .inr (.inr ⟨sec, member, ours, pos, inside, isText, same⟩)
    simp only [Reader.selectPids, sendSelectedPmt, if_pos selects]
    refine ⟨{ stays.derived with teletext, streams := ?_ }, { stays.works with teletext }⟩
    intro pid inside
    cases found : (selectStreams sec (streamEntries sec) work.reader.here.ttxpid []).2 with
    | none =>
        rw [found] at inside
        exact stays.derived.streams pid inside
    | some pids =>
        rw [found] at inside
        rcases streams pids found pid inside with impossible | ⟨pos, isEntry, same⟩
        · exact (List.not_mem_nil impossible).elim
        · exact ⟨sec, member, ours, pos, isEntry, same⟩
  · simp only [Reader.selectPids, sendSelectedPmt, if_neg selects]
    exact ⟨{ stays.derived with teletext := stays.works.teletext }, { stays.works with }⟩

theorem StaysWith.pmt (stays : StaysWith group work) (sec : List UInt8) :
    StaysWith group (work.pmt sec) := by
  have read := (stays.logged sec).readPids (mem_logged work sec)
  have handed := read.handOver (mem_logged work sec)
  refine handed.selectPids ?_
  rw [Work.handOver_sections]
  exact mem_logged work sec

theorem StaysWith.packet (stays : StaysWith group work) (packet : Packet) :
    StaysWith group (work.packet packet) := by
  obtain ⟨patAsm, pmtAsm, ecmAsm, done⟩ := work.packet_cases packet
  have assembled : StaysWith group (work.assembling patAsm pmtAsm ecmAsm) :=
    ⟨{ stays.derived with }, stays.works⟩
  rcases done with same | ⟨sec, same | same | same⟩
  · rw [same]
    exact assembled
  · rw [same]
    exact ⟨assembled.derived, assembled.works⟩
  · rw [same]
    exact assembled.pat sec
  · rw [same]
    exact assembled.pmt sec

/-- A whole read stays with the channel it is processed for. -/
theorem StaysWith.read (stays : StaysWith group work) (packets : List Packet) :
    StaysWith group (packets.foldl Work.packet work) := by
  induction packets generalizing work with
  | nil => exact stays
  | cons packet packets ih => exact ih (stays.packet packet)

/-- An iteration that copied the channel's group begins with its channel. -/
theorem Derived.worksOn {reader : Reader} {handed : List (UInt16 × List Candidate)}
    (derived : Derived group sections reader handed) (copied : reader.here = group) :
    WorksOn group sections reader.resolve.here where
  svc := by
    rw [← copied]
    rfl
  hint := by
    rw [← copied]
    rfl
  video := by
    simp only [Reader.resolve]
    split
    · rename_i isTable
      obtain ⟨sec, member, ours, same⟩ := derived.pids isTable
      exact .inr ⟨sec, member, ours, by rw [same]⟩
    · exact .inl (congrArg Group.vpid copied)
  teletext := by
    simp only [Reader.resolve]
    split
    · exact derived.teletext
    · exact .inr (.inl (congrArg Group.ttxpid copied))

end Stream

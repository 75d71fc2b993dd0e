import UsbDvbs2.Camd.Protocols
import UsbDvbs2.Camd.Socket
import UsbDvbs2.Runs.Conversation

/-! # Requests and answers over one socket

A client sends a request and reads messages until one decides or nothing comes in time. A
protocol says how it reads one message; what it is told about every request of a session
follows.
-/

namespace Camd

open Runs

/-- Bytes that come, then an answer or a timeout, then the rest. -/
def heard (front : List UInt8) (answer : Option (List UInt8)) (rest : List (List UInt8)) :
    List (List UInt8) :=
  match answer, rest with
  | some wire, next :: others => (front ++ (wire ++ next)) :: others
  | some wire, [] => [front ++ wire]
  | none, others => front :: others

theorem heard_front (front : List UInt8) (answer : Option (List UInt8)) (next : List UInt8)
    (others : List (List UInt8)) : ∃ first more,
      heard front answer (next :: others) = (front ++ first) :: more ∧
      heard [] answer (next :: others) = first :: more := by
  cases answer with
  | none => exact ⟨[], _, by rw [List.append_nil, heard], rfl⟩
  | some wire => exact ⟨_, _, rfl, rfl⟩

/-- A request, and what the server has to say until the next one: some messages aside, and an
answer if it comes in time. -/
structure Served (Ask Message : Type) where
  ask : Ask
  aside : List Message
  answer : Option Message

section Dialogue

variable {Ask Message Link : Type}

/-- What stands on the socket between the timeouts, in a session with these requests. -/
def spoken (wire : Message → List UInt8) (rest : List (List UInt8)) :
    List (Served Ask Message) → List (List UInt8)
  | [] => rest
  | served :: later =>
      heard (served.aside.flatMap wire) (served.answer.map wire) (spoken wire rest later)

/-- What the client should be told: what the answer says, and of silence nothing. -/
def Served.verdict (verdict : Message → Verdict) (served : Served Ask Message) : Verdict :=
  (served.answer.map verdict).getD .refused

/-- The requests of a session with their ids. -/
def numbered : UInt16 → List (Served Ask Message) → List (UInt16 × Served Ask Message)
  | _, [] => []
  | id, served :: later => (id + 1, served) :: numbered (id + 1) later

theorem numbered_snd (id : UInt16) (requests : List (Served Ask Message)) :
    (numbered id requests).map Prod.snd = requests := by
  induction requests generalizing id with
  | nil => rfl
  | cons served later ih => rw [numbered, List.map_cons, ih]

theorem spoken_cons (wire : Message → List UInt8) {rest : List (List UInt8)} (some : rest ≠ [])
    (requests : List (Served Ask Message)) :
    ∃ next others, spoken wire rest requests = next :: others := by
  induction requests with
  | nil => exact List.exists_cons_of_ne_nil some
  | cons served later ih =>
      obtain ⟨next, others, same⟩ := ih
      obtain ⟨first, more, front, -⟩ :=
        heard_front (served.aside.flatMap wire) (served.answer.map wire) next others
      exact ⟨_, _, by rw [spoken, same, front]⟩

/-! ## Reading one answer -/

/-- How a protocol reads: a message aside is passed, an answer decides, and at a timeout there
is no answer. What is known of the connection stays. -/
structure Listens (read : Nat → Link → Socket → Verdict × Link × Socket)
    (wire : Message → List UInt8) (verdict : Message → Verdict) (aside answers : Message → Prop)
    (known : Link → Prop) : Prop where
  passes : ∀ turns link message rest socket, known link → aside message →
    delivered socket = wire message ++ rest →
    ∃ link' later, read (turns + 1) link socket = read turns link' later ∧ known link' ∧
      delivered later = rest ∧ behindPause later = behindPause socket
  decides : ∀ turns link message rest socket, known link → answers message →
    delivered socket = wire message ++ rest →
    ∃ link' later, read (turns + 1) link socket = (verdict message, link', later) ∧ known link' ∧
      delivered later = rest ∧ behindPause later = behindPause socket
  pauses : ∀ turns link later, known link →
    ∃ link', read (turns + 1) link (.timeout :: later) = (.refused, link', later) ∧ known link'

section Listens

variable {read : Nat → Link → Socket → Verdict × Link × Socket} {wire : Message → List UInt8}
  {verdict : Message → Verdict} {aside answers : Message → Prop} {known : Link → Prop}

theorem Listens.passes_all (listens : Listens read wire verdict aside answers known)
    {messages : List Message} (turns : Nat) {link : Link} {socket : Socket} {rest : List UInt8}
    (is : known link) (apart : ∀ message ∈ messages, aside message)
    (arrives : delivered socket = messages.flatMap wire ++ rest) :
    ∃ link' later, read (turns + messages.length) link socket = read turns link' later ∧
      known link' ∧ delivered later = rest ∧ behindPause later = behindPause socket := by
  induction messages generalizing link socket with
  | nil => exact ⟨link, socket, rfl, is, arrives, rfl⟩
  | cons message messages ih =>
      rw [List.forall_mem_cons] at apart
      rw [List.flatMap_cons, List.append_assoc] at arrives
      obtain ⟨between, after, passed, is', left, pause⟩ := listens.passes
        (turns + messages.length) link message _ socket is apart.1 arrives
      obtain ⟨link', later, read, is'', left', pause'⟩ := ih is' apart.2 left
      exact ⟨link', later, passed.trans read, is'', left', pause'.trans pause⟩

/-- With enough turns a request is told its answer, and what comes behind that is left. -/
theorem Listens.hears (listens : Listens read wire verdict aside answers known)
    {served : Served Ask Message} {limit : Nat} {link : Link} {socket : Socket} {next : List UInt8}
    {others : List (List UInt8)} (is : known link)
    (apart : ∀ message ∈ served.aside, aside message) (few : served.aside.length ≤ limit)
    (sound : ∀ answer ∈ served.answer, answers answer)
    (speaks : stretches socket =
      heard (served.aside.flatMap wire) (served.answer.map wire) (next :: others)) :
    ∃ link' later, read (limit + 1) link socket = (served.verdict verdict, link', later) ∧
      known link' ∧ stretches later = next :: others := by
  obtain ⟨turns, counted⟩ : ∃ turns, limit + 1 = turns + 1 + served.aside.length :=
    ⟨limit - served.aside.length, by omega⟩
  obtain ⟨first, more, front, bare⟩ :=
    heard_front (served.aside.flatMap wire) (served.answer.map wire) next others
  obtain ⟨arrives, after⟩ := stretches_read (speaks.trans front)
  obtain ⟨between, socket', passed, is', left, pause⟩ :=
    listens.passes_all (turns + 1) is apart arrives
  have behind := after socket' left pause
  rw [counted, passed, Served.verdict]
  cases answer : served.answer with
  | none =>
      rw [answer] at bare
      cases bare
      obtain ⟨later, rfl, left'⟩ := stretches_paused behind
      obtain ⟨link', silent, is''⟩ := listens.pauses turns between later is'
      exact ⟨link', later, silent, is'', left'⟩
  | some found =>
      rw [answer] at bare
      cases bare
      have found_first : stretches socket' = (wire found ++ next) :: others := behind
      obtain ⟨comes, after'⟩ := stretches_read found_first
      obtain ⟨link', later, decided, is'', left', pause'⟩ := listens.decides turns between found
        next socket' is' (sound found answer) comes
      exact ⟨link', later, decided, is'', after' later left' pause'⟩

end Listens

/-! ## A session -/

/-- One request: it is sent, and the answer is read. A request that is not sent reads nothing. -/
def exchange (send : Link → Ask → Option (List UInt8) × Link)
    (read : Nat → Link → Socket → Verdict × Link × Socket) (turns : Nat) (state : Link × Socket)
    (served : Served Ask Message) : (Option (List UInt8) × Verdict) × Link × Socket :=
  match send state.1 served.ask with
  | (none, link) => ((none, .fatal), link, state.2)
  | (some wire, link) =>
      let got := read turns link state.2
      ((some wire, got.1), got.2)

/-- What a request with an id is told, and that the server could read it. -/
def Told (verdict : Message → Verdict) (reads : UInt16 → Ask → List UInt8 → Prop)
    (request : UInt16 × Served Ask Message) (reply : Option (List UInt8) × Verdict) : Prop :=
  ∃ wire, reply.1 = some wire ∧ reply.2 = request.2.verdict verdict ∧
    reads request.1 request.2.ask wire

/-- What a server does about a request. -/
structure Fair (limit : Nat) (fits : Ask → Prop) (aside answers : Message → Prop)
    (served : Served Ask Message) : Prop where
  fits : fits served.ask
  apart : ∀ message ∈ served.aside, aside message
  few : served.aside.length ≤ limit
  sound : ∀ answer ∈ served.answer, answers answer

section Session

/-- The connection in front of some requests, the last id being this one. -/
structure Ready (wire : Message → List UInt8) (known : UInt16 → Link → Prop)
    (fair : UInt16 → Served Ask Message → Prop) (rest : List (List UInt8)) (state : Link × Socket)
    (requests : List (UInt16 × Served Ask Message)) (id : UInt16) : Prop where
  ids : requests = numbered id (requests.map Prod.snd)
  known : known id state.1
  fair : ∀ request ∈ requests, fair request.1 request.2
  spoken : stretches state.2 = spoken wire rest (requests.map Prod.snd)

/-- Some id was the last. -/
def Stands (wire : Message → List UInt8) (known : UInt16 → Link → Prop)
    (fair : UInt16 → Served Ask Message → Prop) (rest : List (List UInt8)) (state : Link × Socket)
    (requests : List (UInt16 × Served Ask Message)) : Prop :=
  ∃ id, Ready wire known fair rest state requests id

variable {send : Link → Ask → Option (List UInt8) × Link}
  {read : Nat → Link → Socket → Verdict × Link × Socket} {wire : Message → List UInt8}
  {verdict : Message → Verdict} {fits : Ask → Prop} {aside answers : UInt16 → Message → Prop}
  {known : UInt16 → Link → Prop} {reads : UInt16 → Ask → List UInt8 → Prop} {limit : Nat}
  {rest : List (List UInt8)}

theorem exchange_told
    (sends : ∀ id link ask, known id link → fits ask →
      ∃ sent link', send link ask = (some sent, link') ∧ reads (id + 1) ask sent ∧
        known (id + 1) link')
    (listens : ∀ id, Listens read wire verdict (aside id) (answers id) (known id))
    (more : rest ≠ []) (state : Link × Socket) (request : UInt16 × Served Ask Message)
    (later : List (UInt16 × Served Ask Message))
    (stands : Stands wire known (fun id => Fair limit fits (aside id) (answers id)) rest state
      (request :: later)) :
    Told verdict reads request (exchange send read (limit + 1) state request.2).1 ∧
      Stands wire known (fun id => Fair limit fits (aside id) (answers id)) rest
        (exchange send read (limit + 1) state request.2).2 later := by
  obtain ⟨number, served⟩ := request
  obtain ⟨id, ids, is, fair, speaks⟩ := stands
  simp only [List.map_cons, numbered, List.cons.injEq, Prod.mk.injEq, and_true] at ids
  obtain ⟨rfl, ids⟩ := ids
  rw [List.forall_mem_cons] at fair
  obtain ⟨⟨fit, apart, few, sound⟩, others⟩ := fair
  obtain ⟨sent, link', written, understood, is'⟩ := sends id state.1 served.ask is fit
  obtain ⟨next, behind, same⟩ := spoken_cons wire more (later.map Prod.snd)
  rw [List.map_cons, Camd.spoken, same] at speaks
  obtain ⟨link'', socket', heard, is'', left⟩ :=
    (listens (id + 1)).hears is' apart few sound speaks
  simp only [exchange, written, heard]
  exact ⟨⟨sent, rfl, rfl, understood⟩, id + 1, ids, is'', others, left.trans same.symm⟩

/-- Every request of a session is told what the server answered to it, however many there are. -/
theorem session_told
    (sends : ∀ id link ask, known id link → fits ask →
      ∃ sent link', send link ask = (some sent, link') ∧ reads (id + 1) ask sent ∧
        known (id + 1) link')
    (listens : ∀ id, Listens read wire verdict (aside id) (answers id) (known id))
    (more : rest ≠ []) {requests : List (Served Ask Message)} {id : UInt16} {link : Link}
    {socket : Socket} (is : known id link)
    (fair : ∀ request ∈ numbered id requests,
      Fair limit fits (aside request.1) (answers request.1) request.2)
    (speaks : stretches socket = spoken wire rest requests) :
    List.Forall₂ (Told verdict reads) (numbered id requests)
        (converse (exchange send read (limit + 1)) (link, socket) requests).1 ∧
      stretches (converse (exchange send read (limit + 1)) (link, socket) requests).2.2 =
        rest := by
  have bare := numbered_snd id requests
  have start : Stands wire known (fun id => Fair limit fits (aside id) (answers id)) rest
      (link, socket) (numbered id requests) :=
    ⟨id, by rw [bare], is, fair, by rw [bare]; exact speaks⟩
  obtain ⟨told, -, -, -, -, left⟩ :=
    converse_rule (exchange_told sends listens more) start
  rw [converse_map, bare] at told left
  exact ⟨told, left⟩

end Session

end Dialogue

end Camd

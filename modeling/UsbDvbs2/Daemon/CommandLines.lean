import UsbDvbs2.Text.Lines

/-! # The lines of the command channel

The daemon takes every read for whole lines: what stands behind the last newline
of a read is handled as a line, and the next read starts a new one. So a client's
lines are handled as sent exactly when no read ends inside one of them.
-/

namespace Daemon

open Text

/-- What `dtv_ipc_read` returns into the buffer of the command loop. -/
structure Read where
  bytes : List UInt8
  some : bytes ≠ []
  fits : bytes.length ≤ 511

/-- The commands, in the order in which `handle_line` tries them. -/
inductive Verb where
  | tuneRf
  | tune
  | channel
  | extra
  | camd
  | status
  | stop
  | quit
  deriving DecidableEq

/-- What a line has to begin with. -/
def Verb.keyword : Verb → List UInt8
  | .tuneRf => ascii ['T', 'U', 'N', 'E', '_', 'R', 'F', ' ']
  | .tune => ascii ['T', 'U', 'N', 'E', ' ']
  | .channel => ascii ['C', 'H', 'A', 'N', 'N', 'E', 'L', ' ']
  | .extra => ascii ['E', 'X', 'T', 'R', 'A', ' ']
  | .camd => ascii ['C', 'A', 'M', 'D', ' ']
  | .status => ascii ['S', 'T', 'A', 'T', 'U', 'S']
  | .stop => ascii ['S', 'T', 'O', 'P']
  | .quit => ascii ['Q', 'U', 'I', 'T']

/-- The command that `handle_line` finds in a line. -/
def verbOf (line : List UInt8) : Option Verb :=
  [.tuneRf, .tune, .channel, .extra, .camd, .status, .stop, .quit].find?
    fun verb => verb.keyword.isPrefixOf line

/-- `handle_line` returns 1. -/
def quits (line : List UInt8) : Bool := verbOf line == some .quit

/-- A line as `handle_line` gets it: up to the first carriage return. -/
def untilCr (line : List UInt8) : List UInt8 := line.takeWhile (· != cr)

/-- The loop over a read, with `begun` since the last newline; what is left at the
end is a line of its own unless it is empty. -/
def splitLines (begun : List UInt8) : List UInt8 → List (List UInt8)
  | [] => if begun = [] then [] else [untilCr begun]
  | byte :: more =>
      if byte = lf then untilCr begun :: splitLines [] more
      else splitLines (begun ++ [byte]) more

/-- The lines of one read, whose text ends at the first NUL. -/
def readLines (read : List UInt8) : List (List UInt8) :=
  splitLines [] (read.takeWhile (· != 0))

/-- The lines up to the one that ends the daemon, and whether there is one. -/
def handleLines : List (List UInt8) → List (List UInt8) × Bool
  | [] => ([], false)
  | line :: lines =>
      if quits line then ([line], true)
      else
        let (handled, done) := handleLines lines
        (line :: handled, done)

/-- The calls of `handle_line` in one session of the command loop. -/
def commandLoop : List Read → List (List UInt8)
  | [] => []
  | read :: reads =>
      let (handled, done) := handleLines (readLines read.bytes)
      if done then handled else handled ++ commandLoop reads

/-- Up to and with the first line that ends the daemon. -/
def throughQuit (lines : List (List UInt8)) : List (List UInt8) := (handleLines lines).1

theorem throughQuit_cons (line : List UInt8) (lines : List (List UInt8)) :
    throughQuit (line :: lines) = line :: if quits line then [] else throughQuit lines := by
  unfold throughQuit
  rw [handleLines]
  split <;> rfl

theorem handleLines_append (lines more : List (List UInt8)) :
    throughQuit (lines ++ more) =
      if (handleLines lines).2 then throughQuit lines
      else throughQuit lines ++ throughQuit more := by
  induction lines with
  | nil => rfl
  | cons line lines ih =>
      rw [List.cons_append, throughQuit_cons, throughQuit_cons, handleLines]
      by_cases last : quits line = true
      · rw [if_pos last, if_pos last, if_pos last]
        rfl
      · rw [if_neg last, if_neg last, if_neg last, ih]
        simp only
        split <;> rfl

/-- The command loop handles the lines of its reads up to the one that ends it. -/
theorem commandLoop_eq (reads : List Read) :
    commandLoop reads = throughQuit ((reads.map Read.bytes).flatMap readLines) := by
  induction reads with
  | nil => rfl
  | cons read reads ih =>
      rw [commandLoop, List.map_cons, List.flatMap_cons, handleLines_append, ih]
      rfl

/-! ## One read -/

theorem splitLines_line {front : List UInt8} (single : lf ∉ front) (begun rest : List UInt8) :
    splitLines begun (front ++ lf :: rest) = untilCr (begun ++ front) :: splitLines [] rest := by
  induction front generalizing begun with
  | nil => rw [List.nil_append, splitLines, if_pos rfl, List.append_nil]
  | cons byte front ih =>
      have other : byte ≠ lf := fun same => single (same ▸ List.mem_cons_self ..)
      rw [List.cons_append, splitLines, if_neg other,
        ih (fun mem => single (List.mem_cons_of_mem _ mem)), List.append_assoc]
      rfl

theorem splitLines_end {front : List UInt8} (single : lf ∉ front) (begun : List UInt8) :
    splitLines begun front =
      if begun ++ front = [] then [] else [untilCr (begun ++ front)] := by
  induction front generalizing begun with
  | nil => rw [splitLines, List.append_nil]
  | cons byte front ih =>
      have other : byte ≠ lf := fun same => single (same ▸ List.mem_cons_self ..)
      rw [splitLines, if_neg other, ih (fun mem => single (List.mem_cons_of_mem _ mem)),
        List.append_assoc]
      rfl

theorem takeWhile_append_of_not_mem {front : List UInt8} (clear : 0 ∉ front)
    (rest : List UInt8) :
    (front ++ rest).takeWhile (· != 0) = front ++ rest.takeWhile (· != 0) := by
  refine List.takeWhile_append_of_pos fun byte mem => ?_
  exact bne_iff_ne.2 fun same => clear (same ▸ mem)

/-- A line that a read holds with its newline. -/
theorem readLines_line {front : List UInt8} (single : lf ∉ front) (clear : 0 ∉ front)
    (rest : List UInt8) : readLines (front ++ lf :: rest) = untilCr front :: readLines rest := by
  have goes : (lf :: rest).takeWhile (· != 0) = lf :: rest.takeWhile (· != 0) :=
    List.takeWhile_cons_of_pos rfl
  rw [readLines, takeWhile_append_of_not_mem clear, goes, splitLines_line single]
  rfl

/-- The beginning of a line at the end of a read. -/
theorem readLines_cut {front : List UInt8} (single : lf ∉ front) (clear : 0 ∉ front)
    (present : front ≠ []) : readLines front = [untilCr front] := by
  have all := takeWhile_append_of_not_mem clear []
  rw [List.append_nil, List.takeWhile_nil, List.append_nil] at all
  rw [readLines, all, splitLines_end single, List.nil_append, if_neg present]

theorem readLines_nil : readLines [] = [] := rfl

/-- Nothing but carriage returns is an empty line. -/
theorem untilCr_returns {returns : List UInt8} (only : ∀ byte ∈ returns, byte = cr) :
    untilCr returns = [] := by
  cases returns with
  | nil => rfl
  | cons byte returns =>
      rw [only byte (List.mem_cons_self ..)]
      rfl

theorem untilCr_clear {text : List UInt8} (clear : cr ∉ text) {returns : List UInt8}
    (only : ∀ byte ∈ returns, byte = cr) : untilCr (text ++ returns) = text := by
  have whole : untilCr (text ++ returns) = text ++ untilCr returns :=
    List.takeWhile_append_of_pos fun byte mem => bne_iff_ne.2 fun same => clear (same ▸ mem)
  rw [whole, untilCr_returns only, List.append_nil]

theorem untilCr_begins (line : List UInt8) : untilCr line <+: line := List.takeWhile_prefix _

/-- The bytes of a text line as C sees it. -/
def Clean (line : List UInt8) : Prop := 0 ∉ line ∧ cr ∉ line

theorem splitLines_clean {begun rest : List UInt8} (before : 0 ∉ begun) (behind : 0 ∉ rest) :
    ∀ line ∈ splitLines begun rest, Clean line := by
  have cut : ∀ {begun : List UInt8}, 0 ∉ begun → Clean (untilCr begun) := by
    intro begun before
    refine ⟨fun mem => before ((untilCr_begins begun).subset mem), fun mem => ?_⟩
    exact bne_iff_ne.1 (List.all_eq_true.1 (List.all_takeWhile (p := (· != cr))) _ mem) rfl
  induction rest generalizing begun with
  | nil =>
      intro line mem
      rw [splitLines] at mem
      split at mem
      · exact nomatch mem
      · rw [List.mem_singleton.1 mem]
        exact cut before
  | cons byte rest ih =>
      have later : 0 ∉ rest := fun mem => behind (List.mem_cons_of_mem _ mem)
      intro line mem
      rw [splitLines] at mem
      split at mem
      · rcases List.mem_cons.1 mem with rfl | mem
        · exact cut before
        · exact ih List.not_mem_nil later line mem
      · refine ih (fun inside => ?_) later line mem
        rcases List.mem_append.1 inside with inside | inside
        · exact before inside
        · exact behind (List.mem_singleton.1 inside ▸ List.mem_cons_self ..)

/-- `handle_line` never sees a carriage return or a NUL. -/
theorem readLines_clean (read : List UInt8) : ∀ line ∈ readLines read, Clean line := by
  refine splitLines_clean List.not_mem_nil fun mem => ?_
  exact bne_iff_ne.1 (List.all_eq_true.1 (List.all_takeWhile (p := (· != 0))) _ mem) rfl

theorem throughQuit_begins (lines : List (List UInt8)) : throughQuit lines <+: lines := by
  induction lines with
  | nil => exact List.prefix_rfl
  | cons line lines ih =>
      rw [throughQuit_cons]
      split
      · exact (List.prefix_cons_inj _).2 (List.nil_prefix)
      · exact (List.prefix_cons_inj _).2 ih

/-! ## Reads that end inside a line -/

/-- How far into the stream the reads matter: to the end of the text of the line
that ends the daemon. -/
def reach : List Line → Nat
  | [] => 0
  | line :: lines =>
      if quits line.text then line.text.length else line.wire.length + reach lines

/-- Every read that ends within the first `bound` bytes ends with a newline. -/
def Aligned (reads : List (List UInt8)) (bound : Nat) : Prop :=
  ∀ before after, reads = before ++ after → before.flatten.length < bound →
    ∀ byte, before.flatten.getLast? = some byte → byte = lf

/-- Line ends that are left over bring an empty line. -/
theorem leftover_line {reads : List (List UInt8)} {spare rest : List UInt8}
    (sent : reads.flatten = spare ++ rest) (only : ∀ byte ∈ spare, byte = cr ∨ byte = lf)
    (ends : lf ∈ spare) :
    ∃ (reads' : List (List UInt8)) (spare' : List UInt8),
      reads.flatMap readLines = [] :: reads'.flatMap readLines ∧
      reads'.flatten = spare' ++ rest ∧ ∀ byte ∈ spare', byte = cr ∨ byte = lf := by
  obtain ⟨returns, more, rfl, none⟩ := List.eq_append_cons_of_mem ends
  have returned : ∀ byte ∈ returns, byte = cr := by
    intro byte mem
    rcases only byte (List.mem_append_left _ mem) with same | newline
    · exact same
    · exact (none (newline ▸ mem)).elim
  have clear : 0 ∉ returns := fun mem => absurd (returned 0 mem) (by decide)
  have empty := untilCr_returns returned
  induction reads with
  | nil => simp at sent
  | cons read reads ih =>
      rw [List.flatten_cons, List.append_assoc] at sent
      by_cases nothing : read = []
      · subst nothing
        rw [List.flatMap_cons, readLines_nil, List.nil_append]
        exact ih (by rw [List.append_assoc]; exact sent)
      · rcases List.append_eq_append_iff.1 sent with ⟨middle, rfl, same⟩ | ⟨middle, rfl, same⟩
        · have single : lf ∉ read := fun mem => none (List.mem_append_left _ mem)
          have clear' : 0 ∉ read := fun mem => clear (List.mem_append_left _ mem)
          have empty' : untilCr read = [] :=
            untilCr_returns fun byte mem => returned byte (List.mem_append_left _ mem)
          refine ⟨reads, middle ++ lf :: more, ?_, ?_, ?_⟩
          · rw [List.flatMap_cons, readLines_cut single clear' nothing, empty']
            rfl
          · rw [same, List.append_assoc]
          · intro byte mem
            refine only byte ?_
            rw [List.append_assoc]
            exact List.mem_append_right _ mem
        · cases middle with
          | nil =>
              rw [List.append_nil] at nothing ⊢
              refine ⟨reads, lf :: more, ?_, same.symm, fun byte mem =>
                only byte (List.mem_append_right _ mem)⟩
              rw [List.flatMap_cons, readLines_cut none clear nothing, empty]
              rfl
          | cons byte middle =>
              obtain ⟨rfl, left⟩ := List.cons.inj same
              refine ⟨middle :: reads, more, ?_, left.symm, fun byte mem =>
                only byte (List.mem_append_right _ (List.mem_cons_of_mem _ mem))⟩
              rw [List.flatMap_cons, readLines_line none clear, empty]
              rfl

theorem ending_only (line : Line) : ∀ byte ∈ line.ending, byte = cr ∨ byte = lf := by
  obtain ⟨returns, ends, returned⟩ := line.ending_eq
  intro byte mem
  rw [ends] at mem
  rcases List.mem_append.1 mem with inside | last
  · exact .inl (returned byte inside)
  · exact .inr (List.mem_singleton.1 last)

theorem lf_mem_ending (line : Line) : lf ∈ line.ending := by
  obtain ⟨returns, ends, -⟩ := line.ending_eq
  rw [ends]
  exact List.mem_append_right _ (List.mem_singleton_self _)

/-- Line ends that are left over put every line behind them out of step. -/
theorem lagging {lines : List Line} {reads : List (List UInt8)} {spare : List UInt8}
    (sent : reads.flatten = spare ++ wire lines) (only : ∀ byte ∈ spare, byte = cr ∨ byte = lf)
    (ends : lf ∈ spare) :
    throughQuit (reads.flatMap readLines) ≠ throughQuit (lines.map Line.text) := by
  induction lines generalizing reads spare with
  | nil =>
      obtain ⟨reads', spare', calls, -, -⟩ := leftover_line sent only ends
      rw [calls, throughQuit_cons]
      exact List.cons_ne_nil _ _
  | cons line lines ih =>
      obtain ⟨reads', spare', calls, sent', only'⟩ := leftover_line sent only ends
      rw [calls, List.map_cons, throughQuit_cons, throughQuit_cons]
      intro same
      obtain ⟨blank, later⟩ := List.cons.inj same
      have stays : quits [] = false := rfl
      rw [← blank, stays, if_neg (by decide), if_neg (by decide)] at later
      refine @ih reads' (spare' ++ line.ending) ?_ ?_ ?_ later
      · rw [sent', wire_cons, Line.wire, ← blank, List.nil_append, List.append_assoc]
      · intro byte mem
        rcases List.mem_append.1 mem with inside | inside
        · exact only' byte inside
        · exact ending_only line byte inside
      · exact List.mem_append_right _ (lf_mem_ending line)

/-! ## The session -/

theorem aligned_zero (reads : List (List UInt8)) : Aligned reads 0 :=
  fun _ _ _ within => absurd within (Nat.not_lt_zero _)

theorem aligned_nil_cons {reads : List (List UInt8)} {bound : Nat} :
    Aligned ([] :: reads) bound ↔ Aligned reads bound := by
  constructor
  · intro aligned before after same within
    exact aligned ([] :: before) after (congrArg _ same) within
  · intro aligned before after same within byte last
    cases before with
    | nil => exact nomatch last
    | cons read before =>
        obtain ⟨rfl, tail⟩ := List.cons.inj same
        exact aligned before after tail within byte last

/-- A line that is gone through takes its length off. -/
theorem aligned_line {line : Line} {read : List UInt8} {reads : List (List UInt8)} {bound : Nat} :
    Aligned ((line.wire ++ read) :: reads) (line.wire.length + bound) ↔
      Aligned (read :: reads) bound := by
  obtain ⟨body, ends, -⟩ := line.wire_eq
  constructor
  · intro aligned before after same within byte last
    cases before with
    | nil => exact nomatch last
    | cons first before =>
        obtain ⟨rfl, rfl⟩ := List.cons.inj same
        refine aligned ((line.wire ++ read) :: before) after rfl ?_ byte ?_
        · rw [List.flatten_cons, List.append_assoc, List.length_append]
          exact Nat.add_lt_add_left within _
        · rw [List.flatten_cons, List.append_assoc, ← List.flatten_cons, List.getLast?_append,
            last]
          rfl
  · intro aligned before after same within byte last
    cases before with
    | nil => exact nomatch last
    | cons first before =>
        obtain ⟨rfl, rfl⟩ := List.cons.inj same
        rw [List.flatten_cons, List.append_assoc, ← List.flatten_cons, List.getLast?_append] at last
        rw [List.flatten_cons, List.append_assoc, ← List.flatten_cons, List.length_append] at within
        cases tail : (read :: before).flatten.getLast? with
        | none =>
            rw [tail, ends, List.getLast?_concat, Option.none_or] at last
            exact (Option.some.inj last).symm
        | some other =>
            rw [tail, Option.some_or] at last
            refine aligned (read :: before) after rfl ?_ byte (tail.trans last)
            omega

theorem zero_not_mem_ending (line : Line) : 0 ∉ line.ending := by
  intro mem
  rcases ending_only line 0 mem with same | same
  · exact absurd same (by decide)
  · exact absurd same (by decide)

/-- A clean line that a read holds as a whole. -/
theorem readLines_wire {line : Line} (clean : Clean line.text) (more : List UInt8) :
    readLines (line.wire ++ more) = line.text :: readLines more := by
  obtain ⟨returns, ends, returned⟩ := line.ending_eq
  have single : lf ∉ line.text ++ returns := by
    intro mem
    rcases List.mem_append.1 mem with inside | inside
    · exact line.single inside
    · exact cr_ne_lf (returned _ inside).symm
  have clear : 0 ∉ line.text ++ returns := by
    intro mem
    rcases List.mem_append.1 mem with inside | inside
    · exact clean.1 inside
    · exact absurd (returned _ inside) (by decide)
  have split : line.wire ++ more = line.text ++ returns ++ lf :: more := by
    rw [Line.wire, ends, ← List.append_assoc, List.append_assoc _ [lf]]
    rfl
  rw [split, readLines_line single clear, untilCr_clear clean.2 returned]

/-- What a read has of a clean line beyond its text are carriage returns. -/
theorem untilCr_cut {line : Line} {read rest : List UInt8} (clean : Clean line.text)
    (cut : line.wire = read ++ rest) (single : lf ∉ read)
    (long : line.text.length ≤ read.length) :
    untilCr read = line.text ∧ ∀ byte ∈ rest, byte = cr ∨ byte = lf := by
  have only := ending_only line
  rw [Line.wire] at cut
  obtain ⟨middle, rfl, ends⟩ : ∃ middle, read = line.text ++ middle ∧
      line.ending = middle ++ rest := by
    rcases List.append_eq_append_iff.1 cut with found | ⟨middle, text, rfl⟩
    · exact found
    · have none : middle = [] := by
        rw [text, List.length_append] at long
        exact List.length_eq_zero_iff.1 (by omega)
      subst none
      rw [List.append_nil] at text
      exact ⟨[], by rw [List.append_nil, text], rfl⟩
  rw [ends] at only
  refine ⟨untilCr_clear clean.2 fun byte mem => ?_, fun byte mem =>
    only byte (List.mem_append_right _ mem)⟩
  rcases only byte (List.mem_append_left _ mem) with same | newline
  · exact same
  · exact (single (List.mem_append_right _ (newline ▸ mem))).elim

/-- Once the line that ends the daemon is in the reads, nothing matters any more. -/
theorem aligned_of_le {read : List UInt8} {reads : List (List UInt8)} {bound : Nat}
    (far : bound ≤ read.length) : Aligned (read :: reads) bound := by
  intro before after same within byte last
  cases before with
  | nil => exact nomatch last
  | cons first before =>
      obtain ⟨rfl, -⟩ := List.cons.inj same
      rw [List.flatten_cons, List.length_append] at within
      omega

/-- A read that holds a line to its end. -/
theorem handled_whole {line : Line} {lines : List Line} {more : List UInt8}
    {reads : List (List UInt8)} (clean : Clean line.text)
    (tail : quits line.text = false →
      (throughQuit ((more :: reads).flatMap readLines) = throughQuit (lines.map Line.text) ↔
        Aligned (more :: reads) (reach lines))) :
    throughQuit (((line.wire ++ more) :: reads).flatMap readLines) =
        throughQuit ((line :: lines).map Line.text) ↔
      Aligned ((line.wire ++ more) :: reads) (reach (line :: lines)) := by
  rw [List.flatMap_cons, readLines_wire clean, List.cons_append, ← List.flatMap_cons,
    List.map_cons, throughQuit_cons, throughQuit_cons, reach]
  by_cases last : quits line.text = true
  · rw [if_pos last, if_pos last, if_pos last]
    refine ⟨fun _ => aligned_of_le ?_, fun _ => rfl⟩
    rw [Line.wire, List.length_append, List.length_append]
    omega
  · rw [if_neg last, if_neg last, if_neg last, aligned_line]
    exact ⟨fun same => (tail (by simpa using last)).1 (List.cons.inj same).2,
      fun aligned => congrArg _ ((tail (by simpa using last)).2 aligned)⟩

/-- A read that ends inside a line. -/
theorem handled_cut {line : Line} {lines : List Line} {read rest : List UInt8}
    {reads : List (List UInt8)} (clean : Clean line.text) (some : read ≠ []) (more : rest ≠ [])
    (cut : line.wire = read ++ rest) (later : reads.flatten = rest ++ wire lines) :
    throughQuit ((read :: reads).flatMap readLines) =
        throughQuit ((line :: lines).map Line.text) ↔
      Aligned (read :: reads) (reach (line :: lines)) := by
  obtain ⟨single, body, ends, -⟩ := Line.cut cut.symm more
  have clear : 0 ∉ read := by
    intro mem
    have inside : 0 ∈ line.wire := cut ▸ List.mem_append_left _ mem
    rcases List.mem_append.1 inside with inside | inside
    · exact clean.1 inside
    · exact zero_not_mem_ending line inside
  rw [List.flatMap_cons, readLines_cut single clear some, List.singleton_append, List.map_cons,
    throughQuit_cons, throughQuit_cons, reach]
  by_cases early : quits line.text = true ∧ line.text.length ≤ read.length
  · rw [(untilCr_cut clean cut single early.2).1, if_pos early.1, if_pos early.1, if_pos early.1]
    exact ⟨fun _ => aligned_of_le early.2, fun _ => rfl⟩
  · have short : read.length < if quits line.text = true then line.text.length
        else line.wire.length + reach lines := by
      have present := List.length_pos_iff.2 more
      have total : line.wire.length = read.length + rest.length := by
        rw [cut, List.length_append]
      by_cases last : quits line.text = true
      · rw [if_pos last]
        exact Nat.lt_of_not_le fun long => early ⟨last, long⟩
      · rw [if_neg last]
        omega
    constructor
    · intro same
      exfalso
      obtain ⟨head, tail⟩ := List.cons.inj same
      have long : line.text.length ≤ read.length := by
        rw [← head]
        exact (untilCr_begins read).length_le
      have stays : ¬ quits line.text = true := fun last => early ⟨last, long⟩
      rw [head, if_neg stays, if_neg stays] at tail
      refine lagging later (untilCr_cut clean cut single long).2 ?_ tail
      rw [ends]
      exact List.mem_append_right _ (List.mem_singleton_self _)
    · intro aligned
      exfalso
      have within : ([read] : List (List UInt8)).flatten.length < if quits line.text = true then
          line.text.length else line.wire.length + reach lines := by simpa using short
      have last := List.getLast?_eq_some_getLast some
      have newline := aligned [read] reads rfl within (read.getLast some) (by simpa using last)
      exact single (newline ▸ List.getLast_mem some)

/-- Reads that begin at a line: what is handled is what was sent, if the lines
are clean, exactly when the reads end with newlines as far as they matter. -/
theorem handled_iff {lines : List Line} {reads : List (List UInt8)}
    (sent : reads.flatten = wire lines)
    (clean : ∀ text ∈ throughQuit (lines.map Line.text), Clean text) :
    throughQuit (reads.flatMap readLines) = throughQuit (lines.map Line.text) ↔
      Aligned reads (reach lines) := by
  induction lines generalizing reads with
  | nil =>
      have nothing : reads.flatMap readLines = [] := by
        refine List.flatMap_eq_nil_iff.2 fun read mem => ?_
        rw [List.flatten_eq_nil_iff.1 sent read mem]
        rfl
      rw [nothing]
      exact ⟨fun _ => aligned_zero reads, fun _ => rfl⟩
  | cons line lines ih =>
      obtain ⟨body, ends, single⟩ := line.wire_eq
      rw [wire_cons] at sent
      have here : Clean line.text := clean _ (by
        rw [List.map_cons, throughQuit_cons]
        exact List.mem_cons_self ..)
      induction reads with
      | nil =>
          rw [ends] at sent
          simp at sent
      | cons read reads inner =>
          by_cases nothing : read = []
          · subst nothing
            rw [List.flatMap_cons, readLines_nil, List.nil_append]
            exact (inner sent).trans aligned_nil_cons.symm
          · rw [List.flatten_cons] at sent
            have whole : ∀ more, read = line.wire ++ more →
                wire lines = more ++ reads.flatten →
                  (throughQuit ((read :: reads).flatMap readLines) =
                      throughQuit ((line :: lines).map Line.text) ↔
                    Aligned (read :: reads) (reach (line :: lines))) := by
              intro more same later
              subst same
              refine handled_whole here fun stays => ih later.symm fun text mem => clean text ?_
              rw [List.map_cons, throughQuit_cons, stays]
              exact List.mem_cons_of_mem _ mem
            rcases List.append_eq_append_iff.1 sent with ⟨rest, cut, later⟩ | ⟨more, same, later⟩
            · by_cases all : rest = []
              · subst all
                rw [List.append_nil] at cut
                exact whole [] (by rw [List.append_nil, cut]) later.symm
              · exact handled_cut here nothing all cut later
            · exact whole more same later

/-- The daemon handles exactly the lines sent, up to the one that ends it, if and
only if those lines are free of NUL and of carriage returns and every read that
ends before the end of their text ends with a newline. -/
theorem commandLoop_exact {lines : List Line} {reads : List Read}
    (sent : (reads.map Read.bytes).flatten = wire lines) :
    commandLoop reads = throughQuit (lines.map Line.text) ↔
      (∀ text ∈ throughQuit (lines.map Line.text), Clean text) ∧
        Aligned (reads.map Read.bytes) (reach lines) := by
  rw [commandLoop_eq]
  constructor
  · intro same
    have clean : ∀ text ∈ throughQuit (lines.map Line.text), Clean text := by
      intro text mem
      rw [← same] at mem
      obtain ⟨read, -, inside⟩ := List.mem_flatMap.1 ((throughQuit_begins _).subset mem)
      exact readLines_clean read text inside
    exact ⟨clean, (handled_iff sent clean).1 same⟩
  · intro both
    exact (handled_iff sent both.1).2 both.2

/-- `STOP`, the line that powers the dish down. -/
def stopLine : Line := ⟨Verb.stop.keyword, false, by decide⟩

/-- Its bytes in two reads. -/
def stopReads : List Read :=
  [⟨ascii ['S', 'T'], by decide, by decide⟩, ⟨ascii ['O', 'P', '\n'], by decide, by decide⟩]

/-- Neither half of a command is a command. -/
theorem commandLoop_splits : ∃ (lines : List Line) (reads : List Read),
    (reads.map Read.bytes).flatten = wire lines ∧
      commandLoop reads ≠ throughQuit (lines.map Line.text) :=
  ⟨[stopLine], stopReads, by decide, by decide⟩

theorem commandLoop_exact_stop :
    commandLoop stopReads = throughQuit [stopLine.text] ↔
      (∀ text ∈ throughQuit [stopLine.text], Clean text) ∧
        Aligned (stopReads.map Read.bytes) (reach [stopLine]) :=
  have sent : (stopReads.map Read.bytes).flatten = wire [stopLine] := by decide
  commandLoop_exact sent

end Daemon

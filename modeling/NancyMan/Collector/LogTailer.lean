import NancyMan.Lib.Utf8Decoder

/-!
# Following a log

The collector reads a log from a stored byte offset: `tailSinceCursor` decodes the bytes after it,
returns the complete lines and moves the offset on by the length of these lines encoded again. That
length is the one of the bytes read unless an ill-formed sequence of fewer than three bytes was
replaced, by a character of three: then the offset runs ahead of the lines. `tail_iff` says that
nothing else goes wrong in any run.
-/
namespace NancyMan.Collector

open Utf8 (newline decodeLossy)
open Lines (lastLine terminated terminated_append terminated_cons)
open List (append_assoc drop_left' length_append map_append)

/-- The stored position in a log. -/
structure FileCursor where
  inode : Nat
  offset : Int
deriving DecidableEq, Repr

/-- What reading a log returns. -/
structure TailResult where
  lines : List (List Char)
  cursor : FileCursor
  startedAtEnd : Bool
deriving DecidableEq, Repr

/-- The offset a read begins at: without a cursor the end, after a rotation or a truncation the
beginning. -/
def startOffset (inode size : Nat) : Option FileCursor → Nat
  | none => size
  | some cursor => if cursor.inode ≠ inode ∨ cursor.offset > size then 0 else cursor.offset.toNat

/-- The complete lines of a decoded chunk: a part after the last line feed is left for later. -/
def completeLines (text : List Char) : List (List Char) :=
  let lines := text.splitOn '\n'
  lines.take (if text.getLast? = some '\n' then lines.length - 1 else max 0 (lines.length - 1))

def consumedBytes (lines : List (List Char)) : Nat :=
  Utf8.byteLength (if lines.isEmpty then [] else ['\n'].intercalate lines ++ ['\n'])

/-- The log is read from the stored offset. -/
def tailSinceCursor (inode : Nat) (content : List UInt8) (cursor : Option FileCursor) :
    TailResult :=
  let offset := startOffset inode content.length cursor
  if offset ≥ content.length then
    { lines := [], cursor := ⟨inode, content.length⟩, startedAtEnd := cursor.isNone }
  else
    let lines := completeLines (decodeLossy (content.drop offset))
    { lines, cursor := ⟨inode, offset + consumedBytes lines⟩, startedAtEnd := false }

/-! ## Runs -/

/-- A log file with its stored cursor. What the calls of a run have returned and where the first of
them began is kept with it. -/
structure Log where
  inode : Nat
  content : List UInt8
  cursor : Option FileCursor
  initial : Option Nat := none
  returned : List (List Char) := []
deriving DecidableEq, Repr

/-- A step of a run: the program appends bytes, or the collector reads the log. -/
inductive LogAction where
  | append (bytes : List UInt8)
  | tail

namespace Log

variable (log : Log)

def start : Nat := startOffset log.inode log.content.length log.cursor

/-- `readLogLines`: the lines since the stored cursor, which is moved. -/
def readLogLines : Log :=
  let result := tailSinceCursor log.inode log.content log.cursor
  { log with
    cursor := some result.cursor
    initial := some (log.initial.getD log.start)
    returned := log.returned ++ result.lines }

/-- One step. -/
def step : LogAction → Log × Unit
  | .append bytes => ({ log with content := log.content ++ bytes }, ())
  | .tail => (log.readLogLines, ())

def AtLine (content : List UInt8) (base offset : Nat) : Prop :=
  offset = base ∨ ∃ before later, content = before ++ newline :: later ∧ offset = before.length + 1

/-- What a step has to leave: the stored offset at a line and, after a read, the returned lines
those after the initial offset. -/
def Exact (action : LogAction) : Prop :=
  ∀ base, (log.step action).1.initial = some base →
    (∃ offset : Nat, (log.step action).1.cursor = some ⟨log.inode, offset⟩ ∧
      AtLine (log.step action).1.content base offset) ∧
    (action = .tail → (log.step action).1.returned =
      (Lines.completeLines newline ((log.step action).1.content.drop base)).map decodeLossy)

/-- A read meets no complete line with an ill-formed sequence shorter than its replacement. -/
def Measured (action : LogAction) : Prop :=
  action = .tail →
    ∀ line ∈ Lines.completeLines newline (log.content.drop log.start), Utf8.Measured line

end Log

/-! ## What a read consumes -/

theorem completeLines_eq (text : List Char) :
    completeLines text = Lines.completeLines '\n' text := by
  unfold completeLines
  dsimp only
  rw [Nat.zero_max, ite_self, Lines.completeLines, List.dropLast_eq_take]

/-- The bytes consumed are those of the lines with a line feed after each. -/
theorem consumedBytes_eq (lines : List (List Char)) :
    consumedBytes lines = Utf8.byteLength (terminated '\n' lines) := by
  cases lines with
  | nil => rfl
  | cons line rest =>
    rw [← Lines.intercalate_append_stop '\n' (List.cons_ne_nil line rest)]
    rfl

/-- The decoded lines encode to at least as many bytes as there were, and to as many exactly when
every ill-formed sequence has the length of its replacement. -/
theorem consumedBytes_decoded (lines : List (List UInt8)) :
    (terminated newline lines).length ≤ consumedBytes (lines.map decodeLossy) ∧
      ((terminated newline lines).length = consumedBytes (lines.map decodeLossy) ↔
        ∀ line ∈ lines, Utf8.Measured line) := by
  rw [consumedBytes_eq]
  induction lines with
  | nil => exact ⟨Nat.le_refl _, fun _ => nofun, fun _ => rfl⟩
  | cons line rest ih =>
    have here := Utf8.byteLength_decodeLossy line
    have total : Utf8.byteLength (terminated '\n' ((line :: rest).map decodeLossy)) =
        Utf8.byteLength (decodeLossy line) + 1 +
          Utf8.byteLength (terminated '\n' (rest.map decodeLossy)) := by
      simp only [Utf8.byteLength_eq_sum, List.map_cons, terminated_cons,
        map_append, List.sum_append, List.sum_cons]
      have one : '\n'.utf8Size = 1 := by decide
      omega
    have raw : (terminated newline (line :: rest)).length =
        line.length + 1 + (terminated newline rest).length := by
      rw [terminated_cons, length_append, List.length_cons]
      omega
    rw [total, raw, List.forall_mem_cons, ← here.2, ← ih.2]
    omega

namespace Log

/-! ## What is known before a read -/

/-- The lines read so far, from the initial offset to the next one. -/
structure View (log : Log) (head : List UInt8) (read : List (List UInt8)) (rest : List UInt8) :
    Prop where
  content : log.content = head ++ (terminated newline read ++ rest)
  start : log.start = head.length + (terminated newline read).length
  initial : log.initial.getD log.start = head.length
  plain : ∀ line ∈ read, newline ∉ line
  returned : log.returned = read.map decodeLossy

/-- A log that was not read in this run, or was read exactly. -/
def Good (log : Log) : Prop :=
  (log.initial = none ∧ log.returned = []) ∨
    ∃ head read rest, View log head read rest ∧ log.initial = some head.length ∧
      log.cursor = some ⟨log.inode, (head.length + (terminated newline read).length : Nat)⟩

theorem start_le (log : Log) : log.start ≤ log.content.length := by
  unfold start startOffset
  split
  · exact Nat.le_refl _
  · split_ifs with moved
    · exact Nat.zero_le _
    · omega

variable {log : Log} {offset : Nat} {head rest : List UInt8}

theorem start_of_stored (stored : log.cursor = some ⟨log.inode, offset⟩)
    (within : offset ≤ log.content.length) : log.start = offset := by
  have stays : ¬ (log.inode ≠ log.inode ∨ (offset : Int) > log.content.length) := by omega
  rw [start, stored]
  exact (if_neg stays).trans (Int.toNat_natCast offset)

/-- The lines read so far, of a good log. -/
theorem Good.view (good : log.Good) : ∃ head read rest, View log head read rest := by
  rcases good with ⟨first, nothing⟩ | ⟨head, read, rest, view, -, -⟩
  · have within := log.start_le
    have length : (log.content.take log.start).length = log.start := by
      rw [List.length_take]
      omega
    refine ⟨log.content.take log.start, [], log.content.drop log.start, ?_, ?_, ?_, nofun, nothing⟩
    · exact (List.take_append_drop _ _).symm
    · rw [length]
      rfl
    · rw [first, length]
      rfl
  · exact ⟨head, read, rest, view⟩

/-- A read returns the complete lines that follow and moves the offset by their encoded length. -/
theorem View.readLogLines {read : List (List UInt8)} (view : View log head read rest) :
    let lines := (Lines.completeLines newline rest).map decodeLossy
    log.readLogLines = { log with
      cursor := some ⟨log.inode, (log.start + consumedBytes lines : Nat)⟩
      initial := some head.length
      returned := log.returned ++ lines } := by
  have unread : log.content.drop log.start = rest := by
    rw [view.content, view.start, ← append_assoc]
    exact drop_left' length_append
  have length : log.content.length = log.start + rest.length := by
    rw [view.content, view.start, length_append, length_append, Nat.add_assoc]
  have result : tailSinceCursor log.inode log.content log.cursor =
      { lines := (Lines.completeLines newline rest).map decodeLossy
        cursor := ⟨log.inode, (log.start + consumedBytes
          ((Lines.completeLines newline rest).map decodeLossy) : Nat)⟩
        startedAtEnd := decide (log.start ≥ log.content.length) && log.cursor.isNone } := by
    unfold tailSinceCursor
    rw [show startOffset log.inode log.content.length log.cursor = log.start from rfl]
    by_cases ended : log.start ≥ log.content.length
    · have nothing : rest = [] := List.eq_nil_of_length_eq_zero (by omega)
      rw [if_pos ended, decide_eq_true ended, nothing, length, nothing]
      rfl
    · rw [if_neg ended, decide_eq_false ended, unread, completeLines_eq,
        Utf8.completeLines_decodeLossy]
      rfl
  unfold Log.readLogLines
  rw [result, view.initial]

/-! ## Each step -/

/-- Lines end with their stop. -/
theorem atLine_terminated {content : List UInt8} {lines : List (List UInt8)}
    (split : content = head ++ (terminated newline lines ++ rest)) :
    AtLine content head.length (head.length + (terminated newline lines).length) := by
  rcases List.eq_nil_or_concat' lines with rfl | ⟨front, line, rfl⟩
  · exact .inl rfl
  · refine .inr ⟨head ++ (terminated newline front ++ line), rest, ?_, ?_⟩
    · rw [split]
      simp
    · simp only [terminated_append, terminated_cons, Lines.terminated_nil,
        length_append, List.length_cons, List.length_nil]
      omega

/-- An offset beyond the last complete line is not at a line. -/
theorem not_atLine {whole last : List UInt8} {base : Nat} (plain : newline ∉ last)
    (after : whole.length < offset) (later : base ≤ whole.length) :
    ¬ AtLine (whole ++ last) base offset := by
  rintro (same | ⟨before, behind, split, same⟩)
  · omega
  · rcases List.append_eq_append_iff.mp split with ⟨middle, -, rest⟩ | ⟨middle, front, rest⟩
    · exact plain (rest ▸ List.mem_append_right middle List.mem_cons_self)
    · have length := congrArg List.length front
      rw [length_append] at length
      cases middle with
      | nil => exact plain ((show newline :: behind = last from rest) ▸ (.head _))
      | cons byte middle =>
        rw [List.length_cons] at length
        omega

/-- A read of a good log leaves what it has to exactly when its lines have the length of their
replacements. -/
theorem exact_tail_iff (good : log.Good) : log.Exact .tail ↔ log.Measured .tail := by
  obtain ⟨head, read, rest, view⟩ := good.view
  have unread : log.content.drop log.start = rest := by
    rw [view.content, view.start, ← append_assoc]
    exact drop_left' length_append
  have consumed := consumedBytes_decoded (Lines.completeLines newline rest)
  have parts := Lines.terminated_append_lastLine newline rest
  have all : Lines.completeLines newline (log.content.drop head.length) =
      read ++ Lines.completeLines newline rest := by
    rw [view.content, List.drop_left, Lines.completeLines_terminated_append view.plain]
  have split : log.content = head ++ (terminated newline
      (read ++ Lines.completeLines newline rest) ++ lastLine newline rest) := by
    rw [view.content, terminated_append, append_assoc, parts]
  have length : (terminated newline (read ++ Lines.completeLines newline rest)).length =
      (terminated newline read).length +
        (terminated newline (Lines.completeLines newline rest)).length := by
    rw [terminated_append, length_append]
  have left : (log.step .tail).1 = log.readLogLines := rfl
  have whole : (head ++ terminated newline
      (read ++ Lines.completeLines newline rest)).length =
        log.start + (terminated newline (Lines.completeLines newline rest)).length := by
    rw [length_append, length, view.start, Nat.add_assoc]
  unfold Exact Measured
  rw [left, view.readLogLines, unread, forall_prop_of_true rfl, ← consumed.2]
  constructor
  · intro exact
    obtain ⟨⟨offset, stored, line⟩, -⟩ := exact head.length rfl
    have moved : log.start + consumedBytes
        ((Lines.completeLines newline rest).map decodeLossy) = offset := by
      have same := congrArg FileCursor.offset (Option.some.inj stored)
      exact Int.ofNat.inj same
    by_contra apart
    rw [split, ← append_assoc] at line
    refine not_atLine (Lines.plain_lastLine newline rest) ?_ ?_ line
    · rw [whole]
      omega
    · rw [length_append]
      omega
  · intro same base first
    obtain rfl : head.length = base := Option.some.inj first
    refine ⟨⟨_, rfl, ?_⟩, fun _ => ?_⟩
    · rw [← same, ← whole, length_append]
      exact atLine_terminated split
    · show log.returned ++ _ = _
      rw [view.returned, all, map_append]

/-- An append leaves what it has to. -/
theorem exact_append (good : log.Good) (bytes : List UInt8) : log.Exact (.append bytes) := by
  intro base first
  rcases good with ⟨none, -⟩ | ⟨head, read, rest, view, initial, stored⟩
  · have absent : log.initial = some base := first
    rw [none] at absent
    cases absent
  · obtain rfl : head.length = base := Option.some.inj (initial.symm.trans first)
    refine ⟨⟨_, stored, ?_⟩, nofun⟩
    have split : log.content ++ bytes = head ++ (terminated newline read ++ (rest ++ bytes)) := by
      rw [view.content]
      simp only [append_assoc]
    exact atLine_terminated split

theorem exact_iff (good : log.Good) (action : LogAction) :
    log.Exact action ↔ log.Measured action := by
  cases action with
  | append bytes => exact iff_of_true (exact_append good bytes) nofun
  | tail => exact exact_tail_iff good

/-- A measured step leaves a good log. -/
theorem good_step (good : log.Good) {action : LogAction} (measured : log.Measured action) :
    (log.step action).1.Good := by
  cases action with
  | append bytes =>
    rcases good with fresh | ⟨head, read, rest, view, initial, stored⟩
    · exact .inl fresh
    · have size : (log.content ++ bytes).length =
          head.length + (terminated newline read).length + (rest ++ bytes).length := by
        rw [view.content]
        simp only [length_append]
        omega
      have grown : View (log.step (.append bytes)).1 head read (rest ++ bytes) := by
        refine ⟨?_, ?_, ?_, view.plain, view.returned⟩
        · show log.content ++ bytes = _
          rw [view.content]
          simp only [append_assoc]
        · refine start_of_stored stored ?_
          show _ ≤ (log.content ++ bytes).length
          omega
        · show log.initial.getD _ = _
          rw [initial]
          rfl
      exact .inr ⟨head, read, rest ++ bytes, grown, initial, stored⟩
  | tail =>
    obtain ⟨head, read, rest, view⟩ := good.view
    have unread : log.content.drop log.start = rest := by
      rw [view.content, view.start, ← append_assoc]
      exact drop_left' length_append
    have lines := measured rfl
    rw [unread] at lines
    have consumed := (consumedBytes_decoded (Lines.completeLines newline rest)).2.mpr lines
    have parts := Lines.terminated_append_lastLine newline rest
    have moved : log.start + consumedBytes ((Lines.completeLines newline rest).map decodeLossy) =
        head.length +
          (terminated newline (read ++ Lines.completeLines newline rest)).length := by
      rw [← consumed, view.start, terminated_append, length_append, Nat.add_assoc]
    have content : log.content = head ++ (terminated newline
        (read ++ Lines.completeLines newline rest) ++ lastLine newline rest) := by
      rw [view.content, terminated_append, append_assoc, parts]
    show log.readLogLines.Good
    rw [view.readLogLines, moved]
    refine .inr ⟨head, read ++ Lines.completeLines newline rest, lastLine newline rest,
      ⟨content, ?_, rfl, ?_, ?_⟩, rfl, rfl⟩
    · refine start_of_stored rfl ?_
      rw [content]
      simp only [length_append]
      omega
    · intro line member
      rcases List.mem_append.mp member with earlier | later
      · exact view.plain line earlier
      · exact Lines.plain_of_mem later
    · show log.returned ++ _ = _
      rw [view.returned, map_append]

def opened (inode : Nat) (content : List UInt8) (cursor : Option FileCursor) : Log :=
  { inode, content, cursor }

/-- In every run on every log every step leaves the lines and the offset it has to, exactly when no
complete line that a read meets has an ill-formed sequence of fewer than three bytes. -/
theorem tail_iff (inode : Nat) (content : List UInt8) (cursor : Option FileCursor)
    (actions : List LogAction) :
    Machine.Along step Exact (opened inode content cursor) actions ↔
      Machine.Along step Measured (opened inode content cursor) actions := by
  have kept (log : Log) (action : LogAction) (good : log.Good) (measured : log.Measured action) :
      (log.step action).1.Good := good_step good measured
  have agree (log : Log) (action : LogAction) (good : log.Good) :
      log.Exact action ↔ log.Measured action := exact_iff good action
  exact Machine.along_congr_of_kept kept agree (.inl ⟨rfl, rfl⟩) actions

/-- A line with a byte that is no UTF-8 moves the offset two bytes beyond its end. -/
theorem invalid_byte_skips :
    ¬ Machine.Along step Exact (opened 1 [] (some ⟨1, 0⟩))
      [.append [0xFF, 10, 97, 10], .tail, .append [98, 10], .tail] := by
  intro exact
  have last := (exact.2.2.2.1 0 (by decide +kernel)).2 rfl
  exact absurd last (by decide +kernel)

end Log

end NancyMan.Collector

import NancyMan.Lib.Frames
import NancyMan.Lib.JsonRoundTrip
import NancyMan.Lib.Utf8Decoder

/-!
# The messages of a connection

Every chunk of bytes that a connection receives has a handler of its own, which hands the messages of
the chunk over one after another, each when the one before is done. A chunk with a bad frame throws
away the messages that it completed before it, a message whose processing throws takes the later ones
of its chunk with it, and a chunk that arrives while messages are waiting is handed over before them.
Where none of this happens, the messages that are handed over are those of the stream before its
first bad frame, however it is cut.
-/
namespace NancyMan.SqlWorker

open Frames (push valuesOf leftOf)

/-- `maxFrameBytes` of the decoder. -/
def maxWorkerFrame : Nat := 1048576

/-- `JSON.parse(body.toString('utf8'))`, unless it throws. -/
def parseMessage (body : List UInt8) : Option Json :=
  Json.parse (String.ofList ((Utf8.decode body).getD (Utf8.decodeLossy body)))

/-- A connection: the bytes that it received, the buffer of its decoder, the messages that each
handler in progress has yet to hand over, and the messages that were handed over before a decoding
error. -/
structure Connection where
  received : List UInt8
  buffer : List UInt8
  waiting : List (List Json)
  handed : List Json
  failed : Bool

/-- What happens to a connection: a chunk arrives, or the processing of the message that a handler
handed over last is done or throws. -/
inductive ConnectionEvent where
  | data (chunk : List UInt8)
  | done (handler : Nat)
  | threw (handler : Nat)

namespace Connection

/-- `createServer`'s callback. -/
def initial : Connection := ⟨[], [], [], [], false⟩

/-- A handler hands its first message over, or ends. -/
def start (connection : Connection) : List Json → Connection
  | [] => connection
  | message :: later =>
    { connection with
      handed := connection.handed ++ [message]
      waiting := connection.waiting ++ [later] }

/-- The handler of `data`, up to its first await. -/
def onData (connection : Connection) (chunk : List UInt8) : Connection :=
  let received := connection.received ++ chunk
  match push maxWorkerFrame parseMessage connection.buffer chunk with
  | .error _ => { connection with received := received, failed := true }
  | .ok (messages, left) =>
    { connection with received := received, buffer := left }.start messages

/-- A handler whose message is done hands the next one over, or ends. -/
def onDone (connection : Connection) (handler : Nat) : Connection :=
  match connection.waiting[handler]? with
  | none => connection
  | some [] => { connection with waiting := connection.waiting.eraseIdx handler }
  | some (message :: later) =>
    { connection with
      handed := connection.handed ++ [message]
      waiting := connection.waiting.set handler later }

def onThrow (connection : Connection) (handler : Nat) : Connection :=
  { connection with waiting := connection.waiting.eraseIdx handler }

/-- One event, before the first decoding error. -/
def step (connection : Connection) (event : ConnectionEvent) : Connection × Unit :=
  if connection.failed then (connection, ())
  else
    match event with
    | .data chunk => (connection.onData chunk, ())
    | .done handler => (connection.onDone handler, ())
    | .threw handler => (connection.onThrow handler, ())

def messages (connection : Connection) : List Json :=
  valuesOf maxWorkerFrame parseMessage connection.received

def Quiet (connection : Connection) : Prop := ∀ later ∈ connection.waiting, later = []

/-- What was handed over are the first messages, and all of them once the decoding fails or no
handler has any left. -/
def Complete (connection : Connection) : Prop :=
  (connection.handed <+: connection.messages) ∧
    (connection.failed = true ∨ connection.Quiet → connection.handed = connection.messages)

/-- An event that neither overtakes messages nor loses them: a chunk that completes messages or has a
bad frame finds no handler with messages to hand over, a chunk with a bad frame completes none, and
what throws is the last message of its chunk. -/
def Orderly (connection : Connection) : ConnectionEvent → Prop
  | .data chunk =>
    match leftOf maxWorkerFrame parseMessage (connection.buffer ++ chunk) with
    | .ok _ =>
      valuesOf maxWorkerFrame parseMessage (connection.buffer ++ chunk) = [] ∨ connection.Quiet
    | .error _ =>
      valuesOf maxWorkerFrame parseMessage (connection.buffer ++ chunk) = [] ∧ connection.Quiet
  | .done _ => True
  | .threw handler => connection.waiting[handler]?.getD [] = []

instance (connection : Connection) : Decidable connection.Quiet :=
  inferInstanceAs (Decidable (∀ later ∈ connection.waiting, later = []))

instance (connection : Connection) : (event : ConnectionEvent) → Decidable (connection.Orderly event)
  | .data chunk => by
    unfold Orderly
    dsimp only
    cases leftOf maxWorkerFrame parseMessage (connection.buffer ++ chunk) <;> infer_instance
  | .done _ => .isTrue trivial
  | .threw handler => inferInstanceAs (Decidable (connection.waiting[handler]?.getD [] = []))

/-- The decoder's buffer is what is left of the bytes received, what was handed over and what waits
are the messages of the stream, and at most one handler has messages. -/
structure Sound (connection : Connection) : Prop where
  left : connection.failed = false →
    leftOf maxWorkerFrame parseMessage connection.received = .ok connection.buffer
  all : connection.handed ++ connection.waiting.flatten = connection.messages
  one : connection.waiting.Pairwise fun first second => first = [] ∨ second = []
  quiet : connection.failed = true → connection.Quiet

/-! ## Steps -/

variable {connection : Connection}

theorem Quiet.flatten (quiet : connection.Quiet) : connection.waiting.flatten = [] :=
  List.flatten_eq_nil_iff.mpr quiet

theorem sound_initial : initial.Sound where
  left _ := rfl
  all := rfl
  one := .nil
  quiet := nofun

variable (sound : connection.Sound)

include sound

theorem Sound.complete : connection.Complete := by
  constructor
  · rw [← sound.all]
    exact List.prefix_append _ _
  · intro settled
    have quiet : connection.Quiet := settled.elim sound.quiet id
    rw [← sound.all, quiet.flatten, List.append_nil]

/-- A chunk after the bytes received completes what it completes with the buffer. -/
theorem Sound.messages_data (working : connection.failed = false) (chunk : List UInt8) :
    valuesOf maxWorkerFrame parseMessage (connection.received ++ chunk) =
        connection.messages ++
          valuesOf maxWorkerFrame parseMessage (connection.buffer ++ chunk) ∧
      leftOf maxWorkerFrame parseMessage (connection.received ++ chunk) =
        leftOf maxWorkerFrame parseMessage (connection.buffer ++ chunk) :=
  Frames.valuesOf_append (sound.left working) chunk

/-- An orderly chunk keeps a connection sound. -/
theorem sound_onData (working : connection.failed = false)
    {chunk : List UInt8} (orderly : connection.Orderly (.data chunk)) :
    (connection.onData chunk).Sound := by
  obtain ⟨values, left⟩ := sound.messages_data working chunk
  unfold Orderly at orderly
  dsimp only at orderly
  unfold onData
  rw [Frames.push_eq]
  cases result : leftOf maxWorkerFrame parseMessage (connection.buffer ++ chunk) with
  | error failure =>
    rw [result] at orderly
    obtain ⟨none', quiet⟩ := orderly
    refine ⟨nofun, ?_, sound.one, fun _ => quiet⟩
    show connection.handed ++ connection.waiting.flatten = valuesOf _ _ (connection.received ++ chunk)
    rw [values, none', List.append_nil]
    exact sound.all
  | ok rest =>
    rw [result] at orderly left
    cases completed : valuesOf maxWorkerFrame parseMessage (connection.buffer ++ chunk) with
    | nil =>
      refine ⟨fun _ => left, ?_, sound.one, fun failed => ?_⟩
      · show connection.handed ++ connection.waiting.flatten =
          valuesOf _ _ (connection.received ++ chunk)
        rw [values, completed, List.append_nil]
        exact sound.all
      · exact absurd (working.symm.trans failed) Bool.false_ne_true
    | cons message later =>
      have quiet : connection.Quiet := by
        rcases orderly with none' | quiet
        · rw [completed] at none'
          cases none'
        · exact quiet
      refine ⟨fun _ => left, ?_, ?_, fun failed => ?_⟩
      · show (connection.handed ++ [message]) ++ (connection.waiting ++ [later]).flatten =
          valuesOf _ _ (connection.received ++ chunk)
        have before := sound.all
        rw [values, completed, ← before, List.flatten_append, quiet.flatten]
        simp
      · refine List.pairwise_append.mpr ⟨sound.one, List.pairwise_singleton _ _, ?_⟩
        intro first member second _
        exact .inl (quiet first member)
      · exact absurd (working.symm.trans failed) Bool.false_ne_true

omit sound in
theorem waiting_split {waiting : List (List Json)} {handler : Nat} {here : List Json}
    (found : waiting[handler]? = some here) :
    waiting = waiting.take handler ++ here :: waiting.drop (handler + 1) := by
  obtain ⟨inside, same⟩ := List.getElem?_eq_some_iff.mp found
  rw [← same, List.getElem_cons_drop, List.take_append_drop]

/-- A handler without messages that ends keeps a connection sound. -/
theorem sound_erase (working : connection.failed = false) {handler : Nat}
    (empty : connection.waiting[handler]?.getD [] = []) :
    Sound { connection with waiting := connection.waiting.eraseIdx handler } := by
  refine ⟨fun _ => sound.left working, ?_, ?_, fun failed => ?_⟩
  · show connection.handed ++ (connection.waiting.eraseIdx handler).flatten = connection.messages
    have same : (connection.waiting.eraseIdx handler).flatten = connection.waiting.flatten := by
      cases found : connection.waiting[handler]? with
      | none =>
        rw [List.eraseIdx_of_length_le (List.getElem?_eq_none_iff.mp found)]
      | some here =>
        rw [found] at empty
        obtain rfl : here = [] := empty
        conv_rhs => rw [waiting_split found]
        rw [List.eraseIdx_eq_take_drop_succ, List.flatten_append, List.flatten_append]
        rfl
    rw [same]
    exact sound.all
  · exact sound.one.sublist (List.eraseIdx_sublist _ _)
  · exact absurd (working.symm.trans failed) Bool.false_ne_true

/-- A message that is done keeps a connection sound. -/
theorem sound_onDone (working : connection.failed = false)
    (handler : Nat) : (connection.onDone handler).Sound := by
  unfold onDone
  split
  · exact sound
  · rename_i found
    exact sound_erase sound working (by rw [found]; rfl)
  · rename_i message later found
    have split := waiting_split found
    have one := sound.one
    rw [split] at one
    obtain ⟨front, back, apart⟩ := List.pairwise_append.mp one
    obtain ⟨ahead, rest⟩ := List.pairwise_cons.mp back
    -- Only this handler has messages.
    have before : ∀ first ∈ connection.waiting.take handler, first = [] := by
      intro first member
      rcases apart first member _ List.mem_cons_self with none' | none'
      · exact none'
      · cases none'
    have after : ∀ second ∈ connection.waiting.drop (handler + 1), second = [] := by
      intro second member
      rcases ahead second member with none' | none'
      · cases none'
      · exact none'
    have changed : connection.waiting.set handler later =
        connection.waiting.take handler ++ later :: connection.waiting.drop (handler + 1) :=
      List.set_eq_take_append_cons_drop .. |>.trans
        (if_pos (List.getElem?_eq_some_iff.mp found).1)
    refine ⟨fun _ => sound.left working, ?_, ?_, fun failed => ?_⟩
    · show (connection.handed ++ [message]) ++ (connection.waiting.set handler later).flatten =
        connection.messages
      have all := sound.all
      rw [split] at all
      rw [← all, changed, List.flatten_append, List.flatten_append,
        List.flatten_eq_nil_iff.mpr before]
      simp
    · show (connection.waiting.set handler later).Pairwise _
      rw [changed]
      refine List.pairwise_append.mpr ⟨front, List.pairwise_cons.mpr ⟨?_, rest⟩, ?_⟩
      · intro second member
        exact .inr (after second member)
      · intro first member _ _
        exact .inl (before first member)
    · exact absurd (working.symm.trans failed) Bool.false_ne_true

/-- An orderly event keeps a connection sound. -/
theorem sound_step {event : ConnectionEvent}
    (orderly : connection.Orderly event) : (connection.step event).1.Sound := by
  unfold step
  by_cases failed : connection.failed
  · rw [if_pos failed]
    exact sound
  · have working : connection.failed = false := Bool.eq_false_iff.mpr failed
    rw [if_neg failed]
    cases event with
    | data chunk => exact sound_onData sound working orderly
    | done handler => exact sound_onDone sound working handler
    | threw handler => exact sound_erase sound working orderly

omit sound

/-! ## Runs -/

/-- In every run of a connection whose events are orderly, what was handed over is, in every state,
the start of the messages of the bytes received before their first bad frame, and all of them once the
decoding fails or no handler has any left. -/
theorem messages_handed_over (events : List ConnectionEvent)
    (orderly : Machine.Along step Orderly initial events) :
    Machine.Throughout step Complete initial events := by
  have kept : ∀ connection event, Sound connection → Orderly connection event →
      Sound (connection.step event).1 := fun connection event sound held => sound_step sound held
  have sound := Machine.throughout_of_along kept sound_initial orderly
  intro earlier later split
  exact (sound earlier later split).complete

def goodFrame : List UInt8 := [0, 0, 0, 1, 49]

def badFrame : List UInt8 := [0, 0, 0, 1, 120]

/-- A good frame and then a bad one, in chunks of their own, are orderly events. -/
theorem messages_handed_over_apart :
    Machine.Throughout step Complete initial [.data goodFrame, .data badFrame] := by
  refine messages_handed_over _ ⟨?_, ?_, trivial⟩
  · decide +kernel
  · decide +kernel

/-- In one chunk with the bad frame, the good one is not handed over. -/
theorem good_message_lost :
    let whole := Machine.after step initial [.data (goodFrame ++ badFrame)]
    let apart := Machine.after step initial [.data goodFrame, .data badFrame]
    whole.received = apart.received ∧ whole.failed = true ∧ apart.failed = true ∧
      whole.handed.length = 0 ∧ apart.handed.length = 1 ∧ ¬whole.Complete := by
  have lost : (Machine.after step initial [.data (goodFrame ++ badFrame)]).handed.length = 0 ∧
      (Machine.after step initial [.data (goodFrame ++ badFrame)]).messages.length = 1 ∧
      (Machine.after step initial [.data (goodFrame ++ badFrame)]).failed = true := by
    decide +kernel
  refine ⟨by decide +kernel, lost.2.2, by decide +kernel, lost.1, by decide +kernel, ?_⟩
  intro complete
  have same := congrArg List.length (complete.2 (.inl lost.2.2))
  cases same

end Connection
end NancyMan.SqlWorker

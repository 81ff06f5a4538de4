import HotelPms.Lib.Framing
import HotelPms.Lib.Run

/- The connection between `NetClientBackend` and `NetClientSession`, in both
   directions.

   Each end has a queue of messages. Its front stays there while it is written, so
   that a queue which is not empty means that a write is in progress. The client's
   messages come through handlers that it posts to its `io_service`, and wait in the
   queue until the socket is connected; a session sends right away.

   `async_write` moves the bytes of its buffer to the socket in pieces, and whatever
   the buffer holds at that moment is what is moved. `wire_integrity` says that this
   is always what was to be written. -/
namespace HotelPms
open Lib

/-- `std::string` and `std::vector<char>`. A `char` is signed. -/
abbrev Chars := List Int8

/-! ## The size of a message -/

/-- `(size >> shift) & 0xff`, stored in a `char` -/
def sizeChar (size shift : Nat) : Int8 := Int8.ofNat ((size >>> shift) &&& 0xff)

/-- `static_cast<size_t>(static_cast<unsigned char>(c))` -/
def unsignedChar (c : Int8) : Nat := c.toUInt8.toNat

def writeHeader (size : Nat) : Chars :=
  [sizeChar size 0, sizeChar size 8, sizeChar size 16, sizeChar size 24]

def readHeader : Chars → Nat
  | [c₀, c₁, c₂, c₃] =>
    unsignedChar c₀ <<< 0 ||| unsignedChar c₁ <<< 8 ||| unsignedChar c₂ <<< 16 ||| unsignedChar c₃ <<< 24
  | _ => 0

theorem unsignedChar_sizeChar (size shift : Nat) :
    unsignedChar (sizeChar size shift) = (size >>> shift) &&& 0xff := by
  have hbyte : ((size >>> shift) &&& 0xff) < 2 ^ 8 := Nat.and_lt_two_pow _ (by decide)
  exact Nat.mod_eq_of_lt hbyte

theorem readHeader_writeHeader {size : Nat} (h : size < 2 ^ 32) : readHeader (writeHeader size) = size := by
  simp only [writeHeader, readHeader, unsignedChar_sizeChar]
  apply Nat.eq_of_testBit_eq
  intro i
  have hff : ∀ j, Nat.testBit 0xff j = decide (j < 8) := fun j => Nat.testBit_two_pow_sub_one 8 j
  simp only [Nat.testBit_or, Nat.testBit_shiftLeft, Nat.testBit_and, Nat.testBit_shiftRight, hff]
  by_cases hi : 32 ≤ i
  · have hzero : size.testBit i = false :=
      Nat.testBit_lt_two_pow (lt_of_lt_of_le h (Nat.pow_le_pow_right (by decide) hi))
    grind
  · grind

/-- The 32 bit header of a message. -/
def sizeHeader : LengthHeader Int8 where
  width := 4
  bound := 2 ^ 32
  encode := writeHeader
  decode := readHeader
  width_pos := by decide
  length_encode _ := rfl
  decode_encode _ := readHeader_writeHeader

/-- `doReadNextMessageHeader` and `doReadNextMessageBody` of the client, `doReadHeader` and
    `doReadBody` of the session: the messages that are read from the first bytes on. -/
def readMessages (bytes : Chars) : List Chars := (sizeHeader.read (.header []) bytes).2

/-! ## Writing -/

/-- A call of `async_write` that has not completed. -/
structure AsyncWrite where
  /-- what the buffer held when it was called, the size of which is the size to be written -/
  contents : Chars
  transferred : Nat := 0

structure Writer where
  /-- `_unsubmittedMessages`, `_outgoingMessages` -/
  messages : List Chars := []
  /-- `_writeBuffer`, `_writeData` -/
  writeBuffer : Chars := []
  writes : List AsyncWrite := []
  /-- the bytes that reached the socket -/
  wire : Chars := []

namespace Writer

/-- The front message goes into the buffer, after its size, and is written. Without a
    message, `front()` has no value. -/
def writeFront (w : Writer) : Option Writer :=
  match w.messages with
  | [] => none
  | message :: _ =>
    let writeBuffer := writeHeader message.length ++ message
    some { w with writeBuffer, writes := w.writes ++ [{ contents := writeBuffer }] }

/-- A write goes on: more bytes of the buffer reach the socket. -/
def transfer (w : Writer) (i count : Nat) : Option Writer := do
  let write ← w.writes[i]?
  guard (write.transferred + count ≤ write.contents.length)
  return { w with wire := w.wire ++ (w.writeBuffer.drop write.transferred).take count
                  writes := w.writes.set i { write with transferred := write.transferred + count } }

/-- A write completes, and its handler runs: the front message is popped, and the next
    one is written, if there is one. -/
def complete (w : Writer) (writeNext : Writer → Option Writer) (i : Nat) : Option (Option Writer) := do
  let write ← w.writes[i]?
  guard (write.transferred = write.contents.length)
  match w.messages with
  | [] => return none
  | _ :: rest =>
    let w := { w with messages := rest, writes := w.writes.eraseIdx i }
    return if rest.isEmpty then some w else writeNext w

end Writer

namespace NetClientBackend

inductive ConnectionStatus where
  | notConnected
  | connecting
  | connected
  deriving DecidableEq

/-- `doSumitMessages`. It asserts that there is a message. -/
def doSumitMessages (w : Writer) : Option Writer := w.writeFront

/-- The handler that `submit` posts. -/
def submitHandler (status : ConnectionStatus) (w : Writer) (message : Chars) : Option Writer :=
  let submitInProgress := !w.messages.isEmpty
  let w := { w with messages := w.messages ++ [message] }
  if !submitInProgress && status = .connected then doSumitMessages w else some w

/-- A client's end of the connection, after `start()`. -/
structure ClientEnd where
  status : ConnectionStatus := .connecting
  /-- the messages of the handlers that were posted and have not run -/
  posted : List Chars := []
  writer : Writer := {}
  /-- all messages that `submit` was called with; the code does not keep them -/
  submitted : List Chars := []

/-- `socketConnected` without an error -/
def socketConnected (c : ClientEnd) : Option ClientEnd := do
  let c := { c with status := .connected }
  if !c.writer.messages.isEmpty then
    let writer ← doSumitMessages c.writer
    return { c with writer }
  else
    return c

/-- What can happen at the client's end. Handlers run one at a time, in the order in
    which they were posted. `none` is a handler that uses a message which is not there. -/
inductive Step : ClientEnd → Option ClientEnd → Prop where
  | submit (c : ClientEnd) (message : Chars) :
    Step c (some { c with posted := c.posted ++ [message], submitted := c.submitted ++ [message] })
  | runPosted (c : ClientEnd) (message : Chars) (rest : List Chars) (front : c.posted = message :: rest) :
    Step c ((submitHandler c.status c.writer message).map fun writer => { c with posted := rest, writer })
  | connected (c : ClientEnd) (connecting : c.status = .connecting) : Step c (socketConnected c)
  | connectFailed (c : ClientEnd) (connecting : c.status = .connecting) :
    Step c (some { c with status := .notConnected })
  | transfer (c : ClientEnd) (i count : Nat) (writer : Writer)
      (moved : c.writer.transfer i count = some writer) : Step c (some { c with writer })
  | completed (c : ClientEnd) (i : Nat) (out : Option Writer)
      (handled : c.writer.complete doSumitMessages i = some out) :
    Step c (out.map fun writer => { c with writer })

/-- A state of the client's end in some run. -/
def Reached : ClientEnd → Prop := Reachable (· = {}) fun c c' => Step c (some c')

end NetClientBackend

namespace NetClientSession

def doSend (w : Writer) : Option Writer := w.writeFront

def sendMessage (w : Writer) (message : Chars) : Option Writer :=
  let sendInProgress := !w.messages.isEmpty
  let w := { w with messages := w.messages ++ [message] }
  if !sendInProgress then doSend w else some w

/-- A session's end of the connection. Its socket was accepted before it is started. -/
structure SessionEnd where
  writer : Writer := {}
  /-- all messages that `sendMessage` was called with; the code does not keep them -/
  submitted : List Chars := []

/-- What can happen at the session's end. -/
inductive Step : SessionEnd → Option SessionEnd → Prop where
  | sendMessage (s : SessionEnd) (message : Chars) :
    Step s ((sendMessage s.writer message).map fun writer =>
      { writer, submitted := s.submitted ++ [message] })
  | transfer (s : SessionEnd) (i count : Nat) (writer : Writer)
      (moved : s.writer.transfer i count = some writer) : Step s (some { s with writer })
  | completed (s : SessionEnd) (i : Nat) (out : Option Writer)
      (handled : s.writer.complete doSend i = some out) :
    Step s (out.map fun writer => { s with writer })

/-- A state of the session's end in some run. -/
def Reached : SessionEnd → Prop := Reachable (· = {}) fun s s' => Step s (some s')

end NetClientSession

/-! ## What reaches the socket -/

namespace Writer

/-- The bytes of outstanding writes that have not reached the socket. -/
def pending (w : Writer) : Chars := w.writes.flatMap fun write => write.contents.drop write.transferred

/-- Of the messages that were put into the queue, those before the front were written.
    The front is being written, from a buffer that holds its frame, or nothing is. -/
inductive Intact : Writer → List Chars → Prop where
  | idle (done waiting : List Chars) (writeBuffer : Chars) :
    Intact { messages := waiting, writeBuffer, wire := sizeHeader.frames done } (done ++ waiting)
  | writing (done : List Chars) (front : Chars) (rest : List Chars) (transferred : Nat)
      (within : transferred ≤ (sizeHeader.frame front).length) :
    Intact { messages := front :: rest, writeBuffer := sizeHeader.frame front
             writes := [{ contents := sizeHeader.frame front, transferred }]
             wire := sizeHeader.frames done ++ (sizeHeader.frame front).take transferred }
      (done ++ front :: rest)

variable {w w' : Writer} {pushed : List Chars}

theorem Intact.push (h : w.Intact pushed) (message : Chars) :
    Intact { w with messages := w.messages ++ [message] } (pushed ++ [message]) := by
  cases h with
  | idle done waiting writeBuffer =>
    rw [List.append_assoc]
    exact .idle done (waiting ++ [message]) writeBuffer
  | writing done front rest transferred within =>
    rw [List.append_assoc]
    exact .writing done front (rest ++ [message]) transferred within

theorem Intact.idle_of_empty (h : w.Intact pushed) (hempty : w.messages = []) : w.writes = [] := by
  cases h with
  | idle done waiting writeBuffer => rfl
  | writing done front rest transferred within => cases hempty

theorem Intact.writeFront (h : w.Intact pushed) (hidle : w.writes = []) (hmessages : w.messages ≠ []) :
    ∃ w', w.writeFront = some w' ∧ w'.Intact pushed ∧ w'.writes ≠ [] := by
  cases h with
  | idle done waiting writeBuffer =>
    cases waiting with
    | nil => exact absurd rfl hmessages
    | cons front rest =>
      have hwriting := Intact.writing done front rest 0 (Nat.zero_le _)
      rw [List.take_zero, List.append_nil] at hwriting
      exact ⟨_, rfl, hwriting, List.cons_ne_nil _ _⟩
  | writing done front rest transferred within => cases hidle

theorem getElem?_singleton_some {write found : AsyncWrite} {i : Nat} (h : [write][i]? = some found) :
    i = 0 ∧ found = write := by
  cases i with
  | zero => exact ⟨rfl, (Option.some.inj h).symm⟩
  | succ i => cases h

theorem Intact.transfer (h : w.Intact pushed) {i count : Nat} (hmoved : w.transfer i count = some w') :
    w'.Intact pushed ∧ w'.messages = w.messages ∧ (w'.writes = [] ↔ w.writes = []) := by
  obtain ⟨write, hwrite, hmoved⟩ := Option.bind_eq_some_iff.1 hmoved
  obtain ⟨_, hguard, hmoved⟩ := Option.bind_eq_some_iff.1 hmoved
  cases hmoved
  cases h with
  | idle done waiting writeBuffer => cases hwrite
  | writing done front rest transferred within =>
    obtain ⟨rfl, rfl⟩ := getElem?_singleton_some hwrite
    have hwithin : transferred + count ≤ (sizeHeader.frame front).length := (Option.guard_eq_some' _).1 hguard
    refine ⟨?_, rfl, by simp⟩
    -- the bytes moved are those that follow the ones already on the wire
    have hwire : sizeHeader.frames done ++ (sizeHeader.frame front).take transferred ++
        ((sizeHeader.frame front).drop transferred).take count =
          sizeHeader.frames done ++ (sizeHeader.frame front).take (transferred + count) := by
      rw [List.append_assoc, List.take_add]
    have hwriting := Intact.writing done front rest (transferred + count) hwithin
    rw [← hwire] at hwriting
    exact hwriting

theorem Intact.complete (h : w.Intact pushed) {i : Nat} {out : Option Writer}
    (hhandled : w.complete Writer.writeFront i = some out) :
    ∃ w', out = some w' ∧ w'.Intact pushed ∧ (w'.writes = [] → w'.messages = []) := by
  obtain ⟨write, hwrite, hcompleted⟩ := Option.bind_eq_some_iff.1 hhandled
  obtain ⟨_, hguard, hpop⟩ := Option.bind_eq_some_iff.1 hcompleted
  cases h with
  | idle done waiting writeBuffer => cases hwrite
  | writing done front rest transferred within =>
    obtain ⟨rfl, rfl⟩ := getElem?_singleton_some hwrite
    have hall : transferred = (sizeHeader.frame front).length := (Option.guard_eq_some' _).1 hguard
    have hout := Option.some.inj hpop
    have hpopped : Intact ⟨rest, sizeHeader.frame front, [],
        sizeHeader.frames done ++ (sizeHeader.frame front).take transferred⟩ (done ++ front :: rest) := by
      have hidle := Intact.idle (done ++ [front]) rest (sizeHeader.frame front)
      rw [List.append_assoc, LengthHeader.frames_append, LengthHeader.frames_cons,
        LengthHeader.frames_nil, List.append_nil] at hidle
      rw [hall, List.take_length]
      exact hidle
    cases rest with
    | nil =>
      exact ⟨_, hout.symm, hpopped, fun _ => rfl⟩
    | cons next rest =>
      obtain ⟨w', hnext, hintact, hwriting⟩ := hpopped.writeFront rfl (List.cons_ne_nil _ _)
      exact ⟨w', hout.symm.trans hnext, hintact, fun hnone => absurd hnone hwriting⟩

end Writer

/-- What the wire carries of the messages that were submitted: the frames of the first of
    them in their order, the last one perhaps only in part. -/
structure WireIntact (submitted : List Chars) (w : Writer) : Prop where
  oneWrite : w.writes.length ≤ 1
  /-- the buffer is as it was when the write was started -/
  unmodified : ∀ write ∈ w.writes, w.writeBuffer = write.contents
  inOrder : ∃ sent, sent <+: submitted ∧ w.wire ++ w.pending = sizeHeader.frames sent ∧
    readMessages w.wire = if w.pending = [] then sent else sent.dropLast

theorem Writer.Intact.wireIntact {w : Writer} {pushed submitted : List Chars} (h : w.Intact pushed)
    (hpushed : pushed <+: submitted) (hsize : ∀ m ∈ submitted, m.length < 2 ^ 32) :
    WireIntact submitted w := by
  have hbound : ∀ m ∈ pushed, m.length < sizeHeader.bound := fun m hm => hsize m (hpushed.subset hm)
  cases h with
  | idle done waiting writeBuffer =>
    have hread := LengthHeader.read_frames sizeHeader fun m hm => hbound m (List.mem_append_left _ hm)
    refine ⟨Nat.zero_le _, nofun, done, (List.prefix_append _ _).trans hpushed, List.append_nil _, ?_⟩
    exact congrArg Prod.snd hread
  | writing done front rest transferred within =>
    have hsent : done ++ [front] <+: done ++ front :: rest := by
      rw [List.append_cons done front rest]
      exact List.prefix_append (done ++ [front]) rest
    have hdone : ∀ m ∈ done, m.length < sizeHeader.bound := fun m hm => hbound m (List.mem_append_left _ hm)
    have hfront : front.length < sizeHeader.bound :=
      hbound front (List.mem_append_right _ List.mem_cons_self)
    refine ⟨le_rfl, by simp, done ++ [front], hsent.trans hpushed, ?_, ?_⟩
    · simp [Writer.pending]
    · show readMessages (sizeHeader.frames done ++ (sizeHeader.frame front).take transferred) =
        if [_].flatMap _ = [] then _ else _
      rw [List.flatMap_singleton]
      split
      · next hnone =>
        have hall := List.take_append_drop transferred (sizeHeader.frame front)
        rw [hnone, List.append_nil] at hall
        have hframes : sizeHeader.frames done ++ sizeHeader.frame front =
            sizeHeader.frames (done ++ [front]) := by simp
        rw [hall, hframes]
        have hread := LengthHeader.read_frames sizeHeader fun m hm => hbound m (hsent.subset hm)
        exact congrArg Prod.snd hread
      · next hsome =>
        rw [List.dropLast_concat]
        exact LengthHeader.read_frames_incomplete sizeHeader hdone hfront
          (List.take_append_drop transferred _) hsome

/-! ## Every run -/

namespace NetClientBackend

/-- The messages that were submitted are those that were put into the queue, and then
    those in handlers that have not run. Only a connected socket is written to, and
    a connected one whenever there is a message. -/
structure Intact (c : ClientEnd) : Prop where
  writer : ∃ pushed, c.submitted = pushed ++ c.posted ∧ c.writer.Intact pushed
  onlyConnected : c.writer.writes ≠ [] → c.status = .connected
  notIdle : c.status = .connected → c.writer.writes = [] → c.writer.messages = []

theorem intact_start : Intact {} :=
  ⟨⟨[], rfl, .idle [] [] []⟩, fun hwrites => absurd rfl hwrites, nofun⟩

theorem submitHandler_intact {c : ClientEnd} (h : Intact c) {pushed : List Chars}
    (hintact : c.writer.Intact pushed) (message : Chars) :
    ∃ writer, submitHandler c.status c.writer message = some writer ∧
      writer.Intact (pushed ++ [message]) ∧ (writer.writes ≠ [] → c.status = .connected) ∧
      (c.status = .connected → writer.writes = [] → writer.messages = []) := by
  have hpush := hintact.push message
  rw [submitHandler]
  by_cases hstart : c.writer.messages = [] ∧ c.status = .connected
  · obtain ⟨hempty, hconnected⟩ := hstart
    obtain ⟨writer, hwritten, hnext, hwriting⟩ :=
      hpush.writeFront (hintact.idle_of_empty hempty) (by simp)
    refine ⟨writer, ?_, hnext, fun _ => hconnected, fun _ hnone => absurd hnone hwriting⟩
    simpa [hempty, hconnected, doSumitMessages] using hwritten
  · refine ⟨_, ?_, hpush, h.onlyConnected, ?_⟩
    · have hwait : ¬ (!(!c.writer.messages.isEmpty) && c.status = .connected) = true := by
        simpa using hstart
      exact if_neg hwait
    · intro hconnected hnone
      exact absurd ⟨h.notIdle hconnected hnone, hconnected⟩ hstart

/-- No handler goes wrong, and each keeps what is intact so. -/
theorem step_intact {c : ClientEnd} {out : Option ClientEnd} (h : Intact c) (hstep : Step c out) :
    ∃ c', out = some c' ∧ Intact c' := by
  obtain ⟨pushed, hsubmitted, hintact⟩ := h.writer
  cases hstep with
  | submit message =>
    refine ⟨_, rfl, ⟨pushed, ?_, hintact⟩, h.onlyConnected, h.notIdle⟩
    show c.submitted ++ [message] = pushed ++ (c.posted ++ [message])
    rw [hsubmitted, List.append_assoc]
  | runPosted message rest front =>
    obtain ⟨writer, hrun, hnext, honly, hnotIdle⟩ := submitHandler_intact h hintact message
    rw [hrun]
    refine ⟨_, rfl, ⟨pushed ++ [message], ?_, hnext⟩, honly, hnotIdle⟩
    rw [hsubmitted, front, List.append_assoc]
    rfl
  | connected connecting =>
    -- nothing is written before the socket is connected
    have hidle : c.writer.writes = [] := by
      by_contra hwriting
      rw [h.onlyConnected hwriting] at connecting
      cases connecting
    rw [socketConnected]
    by_cases hempty : c.writer.messages = []
    · refine ⟨{ c with status := .connected }, ?_, ⟨pushed, hsubmitted, hintact⟩, fun _ => rfl, ?_⟩
      · simp [hempty]
      · exact fun _ _ => hempty
    · obtain ⟨writer, hwritten, hnext, hwriting⟩ := hintact.writeFront hidle hempty
      refine ⟨{ c with status := .connected, writer }, ?_, ⟨pushed, hsubmitted, hnext⟩, fun _ => rfl, ?_⟩
      · simp [hempty, doSumitMessages, hwritten]
      · exact fun _ hnone => absurd hnone hwriting
  | connectFailed connecting =>
    refine ⟨_, rfl, ⟨pushed, hsubmitted, hintact⟩, ?_, nofun⟩
    intro hwriting
    rw [h.onlyConnected hwriting] at connecting
    cases connecting
  | transfer i count writer moved =>
    obtain ⟨hnext, hmessages, hwrites⟩ := hintact.transfer moved
    refine ⟨_, rfl, ⟨pushed, hsubmitted, hnext⟩, ?_, ?_⟩
    · exact fun hwriting => h.onlyConnected fun hnone => hwriting (hwrites.2 hnone)
    · intro hconnected hnone
      show writer.messages = []
      rw [hmessages]
      exact h.notIdle hconnected (hwrites.1 hnone)
  | completed i out handled =>
    have hconnected : c.status = .connected := by
      apply h.onlyConnected
      intro hnone
      obtain ⟨write, hwrite, -⟩ := Option.bind_eq_some_iff.1 handled
      rw [hnone] at hwrite
      cases hwrite
    obtain ⟨writer, rfl, hnext, hnotIdle⟩ := hintact.complete handled
    exact ⟨_, rfl, ⟨pushed, hsubmitted, hnext⟩, fun _ => hconnected, fun _ => hnotIdle⟩

theorem Reached.intact {c : ClientEnd} (h : Reached c) : Intact c := by
  apply Reachable.invariant _ _ h
  · rintro c rfl
    exact intact_start
  · intro c c' hc hstep
    obtain ⟨next, hnext, hintact⟩ := step_intact hc hstep
    cases hnext
    exact hintact

end NetClientBackend

namespace NetClientSession

/-- The messages that were sent are those that were put into the queue, and while there is
    one, one is written. -/
structure Intact (s : SessionEnd) : Prop where
  writer : s.writer.Intact s.submitted
  notIdle : s.writer.writes = [] → s.writer.messages = []

theorem sendMessage_intact {s : SessionEnd} (h : Intact s) (message : Chars) :
    ∃ writer, sendMessage s.writer message = some writer ∧
      Intact { writer, submitted := s.submitted ++ [message] } := by
  have hpush := h.writer.push message
  rw [sendMessage]
  by_cases hempty : s.writer.messages = []
  · obtain ⟨writer, hwritten, hnext, hwriting⟩ :=
      hpush.writeFront (h.writer.idle_of_empty hempty) (by simp)
    refine ⟨writer, ?_, hnext, fun hnone => absurd hnone hwriting⟩
    simpa [hempty, doSend] using hwritten
  · refine ⟨_, ?_, hpush, fun hnone => absurd (h.notIdle hnone) hempty⟩
    simp [hempty]

theorem step_intact {s : SessionEnd} {out : Option SessionEnd} (h : Intact s) (hstep : Step s out) :
    ∃ s', out = some s' ∧ Intact s' := by
  cases hstep with
  | sendMessage message =>
    obtain ⟨writer, hsent, hintact⟩ := sendMessage_intact h message
    rw [hsent]
    exact ⟨_, rfl, hintact⟩
  | transfer i count writer moved =>
    obtain ⟨hnext, hmessages, hwrites⟩ := h.writer.transfer moved
    refine ⟨_, rfl, hnext, fun hnone => ?_⟩
    show writer.messages = []
    rw [hmessages]
    exact h.notIdle (hwrites.1 hnone)
  | completed i out handled =>
    obtain ⟨writer, rfl, hnext, hnotIdle⟩ := h.writer.complete handled
    exact ⟨_, rfl, hnext, hnotIdle⟩

theorem Reached.intact {s : SessionEnd} (h : Reached s) : Intact s := by
  apply Reachable.invariant _ _ h
  · rintro s rfl
    exact ⟨.idle [] [] [], fun _ => rfl⟩
  · intro s s' hs hstep
    obtain ⟨next, hnext, hintact⟩ := step_intact hs hstep
    cases hnext
    exact hintact

end NetClientSession

theorem Writer.Intact.all_written {w : Writer} {pushed : List Chars} (h : w.Intact pushed)
    (hwrites : w.writes = []) (hmessages : w.messages = []) : w.wire = sizeHeader.frames pushed := by
  cases h with
  | idle done waiting writeBuffer =>
    cases hmessages
    rw [List.append_nil]
  | writing done front rest transferred within => cases hwrites

/-- In every run of either end, as long as all messages are shorter than 2^32 bytes, at most
    one write is outstanding and its buffer is as it was when it was started. The bytes
    on the wire, and those that are outstanding, are the frames of the first messages in
    the order of their submission, and reading what is on the wire gives these messages,
    without one that is not complete. No handler uses a message that is not there, and when
    nothing is outstanding, the wire carries every message that was submitted. -/
theorem wire_integrity :
    (∀ c, NetClientBackend.Reached c → (∀ m ∈ c.submitted, m.length < 2 ^ 32) →
      WireIntact c.submitted c.writer ∧ (∀ out, NetClientBackend.Step c out → out ≠ none) ∧
      (c.status = .connected → c.posted = [] → c.writer.writes = [] →
        c.writer.wire = sizeHeader.frames c.submitted)) ∧
    (∀ s, NetClientSession.Reached s → (∀ m ∈ s.submitted, m.length < 2 ^ 32) →
      WireIntact s.submitted s.writer ∧ (∀ out, NetClientSession.Step s out → out ≠ none) ∧
      (s.writer.writes = [] → s.writer.wire = sizeHeader.frames s.submitted)) := by
  constructor
  · intro c hreached hsize
    have h := NetClientBackend.Reached.intact hreached
    obtain ⟨pushed, hsubmitted, hintact⟩ := h.writer
    have hprefix : pushed <+: c.submitted := by
      rw [hsubmitted]
      exact List.prefix_append pushed c.posted
    refine ⟨hintact.wireIntact hprefix hsize, ?_, ?_⟩
    · intro out hstep
      obtain ⟨c', rfl, -⟩ := NetClientBackend.step_intact h hstep
      exact Option.some_ne_none c'
    · intro hconnected hposted hwrites
      rw [hsubmitted, hposted, List.append_nil]
      exact hintact.all_written hwrites (h.notIdle hconnected hwrites)
  · intro s hreached hsize
    have h := NetClientSession.Reached.intact hreached
    refine ⟨h.writer.wireIntact List.prefix_rfl hsize, ?_, ?_⟩
    · intro out hstep
      obtain ⟨s', rfl, -⟩ := NetClientSession.step_intact h hstep
      exact Option.some_ne_none s'
    · intro hwrites
      exact h.writer.all_written hwrites (h.notIdle hwrites)

/-- A client that submitted two messages before it was connected, and has written a part of
    the second size; a session that has written two frames. -/
theorem wire_integrity_twoMessages : ∃ (c : NetClientBackend.ClientEnd) (s : NetClientSession.SessionEnd),
    c.submitted = [[7], [8, 9]] ∧ c.writer.wire = [1, 0, 0, 0, 7, 2, 0, 0] ∧
    WireIntact [[7], [8, 9]] c.writer ∧ readMessages c.writer.wire = [[7]] ∧
    s.submitted = [[7], [8, 9]] ∧ WireIntact [[7], [8, 9]] s.writer ∧
    readMessages s.writer.wire = [[7], [8, 9]] := by
  have c₀ : NetClientBackend.Reached {} := .init rfl
  have c₁ := c₀.step (.submit _ [7])
  have c₂ := c₁.step (.submit _ [8, 9])
  have c₃ := c₂.step (.runPosted _ [7] _ rfl)
  have c₄ := c₃.step (.runPosted _ [8, 9] _ rfl)
  have c₅ := c₄.step (.connected _ rfl)
  have c₆ := c₅.step (.transfer _ 0 2 _ rfl)
  have c₇ := c₆.step (.transfer _ 0 3 _ rfl)
  have c₈ := c₇.step (.completed _ 0 (some _) rfl)
  have c₉ := c₈.step (.transfer _ 0 3 _ rfl)
  have s₀ : NetClientSession.Reached {} := .init rfl
  have s₁ := s₀.step (.sendMessage _ [7])
  have s₂ := s₁.step (.transfer _ 0 5 _ rfl)
  have s₃ := s₂.step (.sendMessage _ [8, 9])
  have s₄ := s₃.step (.completed _ 0 (some _) rfl)
  have s₅ := s₄.step (.transfer _ 0 6 _ rfl)
  have s₆ := s₅.step (.completed _ 0 (some _) rfl)
  have hc := (wire_integrity.1 _ c₉ (by decide)).1
  obtain ⟨hs, -, hwritten⟩ := wire_integrity.2 _ s₆ (by decide)
  refine ⟨_, _, rfl, rfl, hc, by decide, rfl, hs, ?_⟩
  rw [hwritten rfl]
  decide

end HotelPms

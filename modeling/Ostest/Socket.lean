import Mathlib.Data.List.Basic
import Mathlib.Data.UInt

/-! The socket test programs: a client that sends NUL-terminated messages over a
stream socket and a server that prints the buffer after every recv.
2node_send.c and 2node_recv.c run the same two loops as single_node.c. -/
namespace Ostest.Socket

abbrev Byte := UInt8

/-- BUFFER_SIZE of the server. -/
def bufferSize : Nat := 256

/-- SEND_COUNT and the text of the client: "This is a test". -/
def sendCount : Nat := 10

def toSendText : List Byte := [84,104,105,115,32,105,115,32,97,32,116,101,115,116]

/-- The bytes that the client's loop puts on the stream: `strlen(text)+1` bytes,
`count` times. -/
def clientLoop : Nat → List Byte → List Byte
  | 0, _ => []
  | count+1, text => (text ++ [0]) ++ clientLoop count text

inductive Recv where
  | data (bytes : List Byte)
  | closed
  | failed (errno : Nat)

inductive Line where
  | received (recvCount : Nat) (text : List Byte)
  | recvFailed (errno : Nat)
  | closeFailed (errno : Nat)
  deriving DecidableEq

def cString (memory : List Byte) : List Byte := memory.takeWhile (· != 0)

def recvInto (buffer bytes : List Byte) : List Byte := bytes ++ buffer.drop bytes.length

/-- The server's loop from one recv on. `beyond` is the memory behind the buffer,
which `%s` runs into when the buffer holds no NUL. -/
def serverLoop (beyond : List Byte) (closeError : Option Nat) :
    List Byte → Nat → List Recv → List Line
  | _, _, [] => []
  | buffer, recvCount, .data bytes :: rest =>
    .received recvCount (cString (recvInto buffer bytes ++ beyond)) ::
      serverLoop beyond closeError (recvInto buffer bytes) (recvCount+1) rest
  | _, _, .closed :: _ => closeError.toList.map .closeFailed
  | _, _, .failed errno :: _ => .recvFailed errno :: closeError.toList.map .closeFailed

def printed (lines : List Line) : List (Nat × List Byte) :=
  lines.filterMap fun
    | .received recvCount text => some (recvCount,text)
    | _ => none

/-! The abstract view: messages in, messages out. -/

def Sendable (text : List Byte) : Prop := 0 ∉ text ∧ text.length < bufferSize

def sent (messages : List (List Byte)) : List Byte := messages.flatMap (· ++ [0])

structure Segments (stream : List Byte) (chunks : List (List Byte)) : Prop where
  whole : chunks.flatten = stream
  nonempty : ∀ chunk ∈ chunks, chunk ≠ []
  bounded : ∀ chunk ∈ chunks, chunk.length ≤ bufferSize

/-- The server prints exactly the messages, in order, once each and numbered from
zero, whatever its buffer and the memory behind it held. -/
def Delivered (messages chunks : List (List Byte)) : Prop :=
  ∀ (buffer beyond : List Byte) (closeError : Option Nat), buffer.length = bufferSize →
    printed (serverLoop beyond closeError buffer 0 (chunks.map .data ++ [.closed])) =
      messages.zipIdx.map (fun entry => (entry.2,entry.1))

def texts (beyond : List Byte) : List Byte → List (List Byte) → List (List Byte)
  | _, [] => []
  | buffer, chunk :: rest =>
    cString (recvInto buffer chunk ++ beyond) :: texts beyond (recvInto buffer chunk) rest

theorem texts_length (beyond buffer : List Byte) (chunks : List (List Byte)) :
    (texts beyond buffer chunks).length = chunks.length := by
  induction chunks generalizing buffer with
  | nil => rfl
  | cons chunk rest ih => simp [texts,ih]

theorem printed_serverLoop (beyond : List Byte) (closeError : Option Nat) (chunks : List (List Byte))
    (buffer : List Byte) (start : Nat) :
    printed (serverLoop beyond closeError buffer start (chunks.map .data ++ [.closed])) =
      ((texts beyond buffer chunks).zipIdx start).map (fun entry => (entry.2,entry.1)) := by
  induction chunks generalizing buffer start with
  | nil =>
    cases closeError <;> rfl
  | cons chunk rest ih =>
    simp only [List.map_cons,List.cons_append,serverLoop,texts,List.zipIdx_cons]
    rw [← ih (recvInto buffer chunk) (start+1)]
    rfl

theorem delivered_iff (messages chunks : List (List Byte)) :
    Delivered messages chunks ↔ ∀ buffer beyond : List Byte, buffer.length = bufferSize →
      texts beyond buffer chunks = messages := by
  have swap : Function.Injective (fun entry : List Byte × Nat => (entry.2,entry.1)) := by
    intro first second equal
    simpa [Prod.ext_iff,and_comm] using equal
  simp only [Delivered,printed_serverLoop]
  constructor
  · intro delivered buffer beyond size
    have indexed := List.map_injective_iff.mpr swap (delivered buffer beyond none size)
    simpa using congrArg (List.map Prod.fst) indexed
  · intro same buffer beyond closeError size
    rw [same buffer beyond size]

theorem cString_terminated (text rest : List Byte) (plain : 0 ∉ text) :
    cString (text ++ 0 :: rest) = text := by
  have keep : ∀ byte ∈ text, (byte != 0) = true := by
    intro byte member
    simpa using fun zero : byte = 0 => plain (zero ▸ member)
  unfold cString
  rw [List.takeWhile_append_of_pos keep]
  simp

theorem recvInto_terminated (beyond buffer text rest : List Byte) (plain : 0 ∉ text) :
    cString (recvInto buffer (text ++ 0 :: rest) ++ beyond) = text := by
  rw [recvInto,List.append_assoc,List.append_assoc,List.cons_append]
  exact cString_terminated text _ plain

theorem texts_whole (beyond : List Byte) (messages : List (List Byte))
    (plain : ∀ text ∈ messages, 0 ∉ text) (buffer : List Byte) :
    texts beyond buffer (messages.map (· ++ [0])) = messages := by
  induction messages generalizing buffer with
  | nil => rfl
  | cons text rest ih =>
    rw [List.map_cons,texts,recvInto_terminated beyond buffer text [] (plain text (by simp)),
      ih (fun other member => plain other (by simp [member]))]

/-! Why any other cutting goes wrong, when one text is sent again and again. -/

/-- Once a recv starts in the middle of a message, the recv that takes the rest of
that message up to its NUL prints a proper suffix of it. -/
theorem texts_inside (beyond text front back rest : List Byte) (plain : 0 ∉ text)
    (split : text = front ++ back) (inside : front ≠ []) (chunks : List (List Byte))
    (buffer : List Byte) (whole : chunks.flatten = back ++ 0 :: rest) :
    ∃ line ∈ texts beyond buffer chunks, line ≠ text := by
  induction chunks generalizing front back buffer with
  | nil => simp at whole
  | cons chunk more ih =>
    rw [List.flatten_cons] at whole
    rcases List.append_eq_append_iff.mp whole with ⟨left,backEq,moreEq⟩ | ⟨taken,chunkEq,restEq⟩
    · -- the chunk ends before the NUL: the next one starts further inside
      obtain ⟨line,member,differs⟩ := ih (front ++ chunk) left (by rw [split,backEq,List.append_assoc])
        (by simp [inside]) (recvInto buffer chunk) moreEq
      exact ⟨line,List.mem_cons_of_mem _ member,differs⟩
    · cases taken with
      | nil =>
        -- the chunk ends right before the NUL, which the next one starts with
        have moreEq : more.flatten = [] ++ 0 :: rest := by simpa using restEq.symm
        obtain ⟨line,member,differs⟩ := ih text [] (by simp) (by simp [split,inside])
          (recvInto buffer chunk) moreEq
        exact ⟨line,List.mem_cons_of_mem _ member,differs⟩
      | cons byte taken =>
        have zero : byte = 0 := by simpa using (List.cons.inj restEq).1.symm
        subst zero
        have plainBack : 0 ∉ back := fun member => plain (by simp [split,member])
        refine ⟨back,by rw [texts,chunkEq,recvInto_terminated beyond buffer back taken plainBack]; simp,?_⟩
        intro same
        have sizes := congrArg List.length (same.trans split)
        have positive := List.length_pos_iff.mpr inside
        rw [List.length_append] at sizes
        omega

theorem chunk_whole (beyond text : List Byte) (plain : 0 ∉ text) (count : Nat) (chunk : List Byte)
    (more : List (List Byte)) (buffer : List Byte)
    (stream : chunk ++ more.flatten = clientLoop count text)
    (right : ∀ line ∈ texts beyond buffer more, line = text) :
    ∃ taken ≤ count, chunk = clientLoop taken text ∧ more.flatten = clientLoop (count-taken) text := by
  induction count generalizing chunk with
  | zero =>
    obtain ⟨none,rest⟩ := List.append_eq_nil_iff.mp stream
    exact ⟨0,Nat.le_refl 0,none,rest⟩
  | succ count ih =>
    by_cases empty : chunk = []
    · subst chunk
      exact ⟨0,Nat.zero_le _,rfl,stream⟩
    rcases List.append_eq_append_iff.mp stream with ⟨left,textEq,moreEq⟩ | ⟨after,chunkEq,restEq⟩
    · -- the chunk ends inside the first message, or exactly with it
      rcases List.eq_nil_or_concat left with none | ⟨back,last,leftEq⟩
      · subst left
        exact ⟨1,by omega,by simpa [clientLoop] using textEq.symm,by simpa using moreEq⟩
      · rw [leftEq,List.concat_eq_append,← List.append_assoc] at textEq
        obtain ⟨split,zero⟩ := List.append_inj' textEq rfl
        have zero : last = 0 := by simpa using zero.symm
        obtain ⟨line,member,differs⟩ := texts_inside beyond text chunk back
          (clientLoop count text) plain split empty more buffer (by rw [moreEq,leftEq,zero]; simp)
        exact absurd (right line member) differs
    · obtain ⟨taken,bound,afterEq,rest⟩ := ih after restEq.symm
      refine ⟨taken+1,by omega,?_,?_⟩
      · rw [chunkEq,afterEq]
        rfl
      · rw [rest]
        congr 1
        omega

theorem chunks_single (beyond text : List Byte) (plain : 0 ∉ text) (chunks : List (List Byte))
    (count : Nat) (buffer : List Byte) (nonempty : ∀ chunk ∈ chunks, chunk ≠ [])
    (stream : chunks.flatten = clientLoop count text)
    (right : ∀ line ∈ texts beyond buffer chunks, line = text) :
    chunks.length ≤ count ∧
      (chunks.length = count → chunks = List.replicate count (text ++ [0])) := by
  induction chunks generalizing count buffer with
  | nil =>
    refine ⟨Nat.zero_le _,?_⟩
    intro none
    subst none
    rfl
  | cons chunk more ih =>
    obtain ⟨taken,bound,chunkEq,moreEq⟩ := chunk_whole beyond text plain count chunk more
      (recvInto buffer chunk) stream (fun line member => right line (List.mem_cons_of_mem _ member))
    have positive : 0 < taken := by
      rcases Nat.eq_zero_or_pos taken with zero | positive
      · subst zero
        exact absurd chunkEq (nonempty chunk (by simp))
      · exact positive
    obtain ⟨fewer,single⟩ := ih (count-taken) (recvInto buffer chunk)
      (fun other member => nonempty other (List.mem_cons_of_mem _ member)) moreEq
      (fun line member => right line (List.mem_cons_of_mem _ member))
    refine ⟨by simp; omega,?_⟩
    intro size
    rw [List.length_cons] at size
    have one : taken = 1 := by omega
    subst one
    obtain ⟨rest,rfl⟩ : ∃ rest, count = rest+1 := ⟨count-1,by omega⟩
    rw [single (by omega),chunkEq]
    simp [clientLoop,List.replicate_succ]

theorem sent_replicate (count : Nat) (text : List Byte) :
    sent (List.replicate count text) = clientLoop count text := by
  induction count with
  | zero => rfl
  | succ count ih => rw [List.replicate_succ,sent,List.flatMap_cons,← sent,ih,clientLoop]

theorem delivered_of_whole (messages : List (List Byte)) (sendable : ∀ text ∈ messages, Sendable text) :
    Delivered messages (messages.map (· ++ [0])) := by
  rw [delivered_iff]
  intro buffer beyond _
  exact texts_whole beyond messages (fun text member => (sendable text member).1) buffer

theorem delivered_repeated (count : Nat) (text : List Byte) (chunks : List (List Byte))
    (sendable : Sendable text) (segments : Segments (clientLoop count text) chunks)
    (delivered : Delivered (List.replicate count text) chunks) :
    chunks = List.replicate count (text ++ [0]) := by
  have lines := (delivered_iff _ _).mp delivered (List.replicate bufferSize 0) [] (by simp)
  refine (chunks_single [] text sendable.1 chunks count (List.replicate bufferSize 0)
    segments.nonempty segments.whole (fun line member => ?_)).2 ?_
  · rw [lines] at member
    exact List.eq_of_mem_replicate member
  · simpa [texts_length] using congrArg List.length lines

/-- The server prints the messages when every recv returns exactly one of them with
its NUL; for the client's loop, which sends one text again and again, it prints
them in no other case. -/
theorem delivered_iff_one_per_recv (messages chunks : List (List Byte))
    (sendable : ∀ text ∈ messages, Sendable text) (segments : Segments (sent messages) chunks) :
    (chunks = messages.map (· ++ [0]) → Delivered messages chunks) ∧
    ∀ count text, messages = List.replicate count text →
      (Delivered messages chunks ↔ chunks = messages.map (· ++ [0])) := by
  have whole : chunks = messages.map (· ++ [0]) → Delivered messages chunks := by
    rintro rfl
    exact delivered_of_whole messages sendable
  refine ⟨whole,?_⟩
  rintro count text rfl
  refine ⟨?_,whole⟩
  intro delivered
  rw [sent_replicate] at segments
  rw [List.map_replicate]
  cases count with
  -- Without messages the text may be any other.
  | zero => exact delivered_repeated 0 [] chunks ⟨by simp,by decide⟩ segments delivered
  | succ count => exact delivered_repeated _ text chunks (sendable text (by simp)) segments delivered

theorem toSendText_sendable : Sendable toSendText := by
  unfold Sendable
  decide

theorem client_delivered_one_by_one :
    Delivered [toSendText,[]] [toSendText ++ [0],[0]] ∧
    Delivered (List.replicate sendCount toSendText) (List.replicate sendCount (toSendText ++ [0])) := by
  refine ⟨(delivered_iff_one_per_recv _ _ ?_ ⟨rfl,by decide,by decide⟩).1 rfl,?_⟩
  · intro text member
    rcases List.mem_pair.mp member with rfl | rfl
    · exact toSendText_sendable
    · exact ⟨by simp,by decide⟩
  · refine ((delivered_iff_one_per_recv _ _ ?_ ⟨rfl,by decide,by decide⟩).2 _ _ rfl).mpr rfl
    intro text member
    exact List.eq_of_mem_replicate member ▸ toSendText_sendable

theorem clientLoop_length (count : Nat) (text : List Byte) :
    (clientLoop count text).length = count * (text.length + 1) := by
  induction count with
  | zero => simp [clientLoop]
  | succ count ih =>
    rw [clientLoop,List.length_append,ih,List.length_append,Nat.succ_mul]
    simp
    omega

/-- All ten messages of the client arrive in one recv: one line is printed. -/
theorem joined_messages_lost :
    ¬∀ messages chunks : List (List Byte), (∀ text ∈ messages, Sendable text) →
      Segments (sent messages) chunks → Delivered messages chunks := by
  intro claimed
  have delivered := claimed (List.replicate sendCount toSendText) [clientLoop sendCount toSendText]
    (fun text member => List.eq_of_mem_replicate member ▸ toSendText_sendable)
    ⟨by simp [sent_replicate],by decide,
      by simp [clientLoop_length,sendCount,toSendText,bufferSize]⟩
  have lines := (delivered_iff _ _).mp delivered (List.replicate bufferSize 0) [] (by simp)
  simpa [texts_length,sendCount] using congrArg List.length lines

end Ostest.Socket

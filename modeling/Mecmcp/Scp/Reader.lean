import Mecmcp.Scp.Transfer

/-!
# Reader — what the reader gives does not depend on the packets

`Session.pending` is what the reader has still to give: the rest of its buffer and the data of the
messages up to the end of the channel.  `Reads session bytes session'` says that exactly `bytes`
were taken from it, and `Takes` that no message behind the last of them was.  Every function of the
reader is described by these: it succeeds when the bytes it asks for are pending, and it takes just
these.
-/

namespace Mecmcp.Scp

open List

variable {session session' : Session} {queue messages : List ChannelMsg} {byte : UInt8}
  {data : Bytes} {missing : ℕ}

def dataUntilClose : List ChannelMsg → Bytes
  | [] => []
  | .data data :: queue => data ++ dataUntilClose queue
  | .eof :: _ => []
  | .close :: _ => []
  | .success :: queue => dataUntilClose queue
  | .failure :: queue => dataUntilClose queue
  | .exitStatus _ :: queue => dataUntilClose queue
  | .exitSignal _ _ :: queue => dataUntilClose queue
  | .other :: queue => dataUntilClose queue

/-- What the reader has still to give. -/
def Session.pending (session : Session) : Bytes :=
  session.reader.buffer.drop session.reader.pos ++ dataUntilClose session.queue

/-- The messages behind the one that carries the byte number `n` of the data. -/
def afterData : ℕ → List ChannelMsg → List ChannelMsg
  | 0, queue => queue
  | _ + 1, [] => []
  | n + 1, .data data :: queue => afterData (n + 1 - data.length) queue
  | n + 1, _ :: queue => afterData (n + 1) queue

@[simp] theorem afterData_zero (queue : List ChannelMsg) : afterData 0 queue = queue := by
  cases queue <;> rfl

/-- A message that carries no data changes nothing about the bytes behind it. -/
theorem afterData_cons {message : ChannelMsg} {queue' : List ChannelMsg} {n : ℕ}
    (hmessage : ∀ m, afterData (m + 1) (message :: queue) = afterData (m + 1) queue)
    (h : ∀ m, 1 ≤ m → afterData m queue = afterData (m - n) queue') :
    ∀ m, 1 ≤ m → afterData m (message :: queue) = afterData (m - n) queue' := by
  intro m hm
  obtain ⟨m, rfl⟩ := Nat.exists_eq_add_of_le' hm
  rw [hmessage, h _ hm]

theorem afterData_data (data : Bytes) (queue : List ChannelMsg) :
    ∀ m, 1 ≤ m → afterData m (.data data :: queue) = afterData (m - data.length) queue := by
  intro m hm
  obtain ⟨m, rfl⟩ := Nat.exists_eq_add_of_le' hm
  rfl

/-- The reader has given the first `n` bytes of the data of these messages, and the message of each
later byte is still to be found by it. -/
def Follows (messages : List ChannelMsg) (n : ℕ) (session : Session) : Prop :=
  ∀ m, 1 ≤ m → afterData (n + m) messages =
    afterData (m - (session.reader.buffer.length - session.reader.pos)) session.queue

/-- Exactly these bytes were taken; messages are only taken from the front of the queue. -/
structure Reads (session : Session) (bytes : Bytes) (session' : Session) : Prop where
  pending : session.pending = bytes ++ session'.pending
  sent : session'.sent = session.sent
  queue : session'.queue <:+ session.queue
  follows : ∀ messages n, Follows messages n session → Follows messages (n + bytes.length) session'

/-- The bytes were taken, and no message behind the last of them. -/
structure Takes (session : Session) (bytes : Bytes) (session' : Session) : Prop
    extends Reads session bytes session' where
  last : ∀ messages n, Follows messages n session →
    session'.queue = afterData (n + bytes.length) messages

theorem Reads.trans {s t u : Session} {first second : Bytes} (h : Reads s first t)
    (h' : Reads t second u) : Reads s (first ++ second) u where
  pending := by rw [h.pending, h'.pending, append_assoc]
  sent := h'.sent.trans h.sent
  queue := h'.queue.trans h.queue
  follows messages n hn := by
    rw [length_append, ← Nat.add_assoc]
    exact h'.follows messages _ (h.follows messages n hn)

theorem Reads.takes {s t u : Session} {first second : Bytes} (h : Reads s first t)
    (h' : Takes t second u) : Takes s (first ++ second) u where
  toReads := h.trans h'.toReads
  last messages n hn := by
    rw [length_append, ← Nat.add_assoc]
    exact h'.last messages _ (h.follows messages n hn)

theorem Reads.refl (s : Session) : Reads s [] s := ⟨rfl, rfl, List.suffix_rfl, fun _ _ h => h⟩

@[simp] theorem pending_send (session : Session) (data : Bytes) :
    (session.send data).pending = session.pending := rfl

/-! ### One byte -/

theorem fill_ok {queue' : List ChannelMsg} {data : { data : Bytes // data ≠ [] }}
    (h : fill queue = .ok (data, queue')) :
    dataUntilClose queue = data.1 ++ dataUntilClose queue' ∧ queue' <:+ queue ∧
      ∀ m, 1 ≤ m → afterData m queue = afterData (m - data.1.length) queue' := by
  fun_induction fill queue with
  | case1 | case4 | case5 => simp at h
  | case2 queue ih =>
    obtain ⟨hdata, hqueue, hafter⟩ := ih h
    exact ⟨hdata, hqueue.trans (suffix_cons _ _),
      afterData_cons (fun _ => by simp [afterData]) hafter⟩
  | case3 data' queue hne =>
    cases h
    exact ⟨rfl, suffix_cons _ _, afterData_data _ _⟩
  | case6 _ ih | case7 _ ih | case8 _ _ ih | case9 _ _ _ ih | case10 _ ih =>
    obtain ⟨hdata, hqueue, hafter⟩ := ih h
    exact ⟨hdata, hqueue.trans (suffix_cons _ _), afterData_cons (fun _ => rfl) hafter⟩

theorem fill_of_data (h : dataUntilClose queue ≠ []) :
    ∃ filled, fill queue = .ok filled := by
  fun_induction fill queue with
  | case1 | case4 | case5 => exact absurd rfl h
  | case3 data queue hne => exact ⟨_, rfl⟩
  | case2 _ ih | case6 _ ih | case7 _ ih | case8 _ _ ih | case9 _ _ _ ih | case10 _ ih => exact ih h

theorem ready_ok {ready : Ready} (h : session.ready = .ok ready) :
    Reads session [] ready.1 := by
  unfold Session.ready at h
  split at h
  · cases h
    exact Reads.refl session
  · next hpos =>
    split at h
    · simp at h
    next data queue hfill =>
    cases h
    obtain ⟨hdata, hqueue, hafter⟩ := fill_ok hfill
    refine ⟨?_, rfl, hqueue, fun messages n hn m hm => ?_⟩
    · rw [Session.pending, drop_eq_nil_of_le (by omega), hdata]
      rfl
    · have hempty : session.reader.buffer.length - session.reader.pos = 0 := by omega
      rw [length_nil, Nat.add_zero, hn m hm, hempty, Nat.sub_zero]
      exact hafter m hm

theorem ready_of_pending (h : session.pending ≠ []) :
    ∃ ready, session.ready = .ok ready := by
  unfold Session.ready
  split
  · exact ⟨_, rfl⟩
  · next hpos =>
    rw [Session.pending, drop_eq_nil_of_le (by omega), nil_append] at h
    obtain ⟨⟨data, queue⟩, hfill⟩ := fill_of_data h
    rw [hfill]
    exact ⟨_, rfl⟩

theorem advance_reads (session : Session) (count : ℕ) :
    Reads session ((session.reader.buffer.drop session.reader.pos).take count)
      (session.advance count) := by
  refine ⟨?_, rfl, suffix_rfl, fun messages n hn m hm => ?_⟩
  · have hdrop : session.reader.buffer.drop (session.reader.pos + count) =
        (session.reader.buffer.drop session.reader.pos).drop count := by rw [drop_drop]
    rw [Session.pending, Session.pending, Session.advance, hdrop, ← append_assoc,
      take_append_drop]
  · rw [length_take, length_drop, Nat.add_assoc, hn _ (by omega)]
    simp only [Session.advance]
    congr 1
    omega

theorem readByte_ok (h : readByte session = .ok (byte, session')) :
    Takes session [byte] session' := by
  unfold readByte at h
  split at h
  · simp at h
  next ready hready =>
  cases h
  have hreads := (ready_ok hready).trans (advance_reads ready.1 1)
  rw [nil_append, drop_eq_getElem_cons ready.2, take_succ_cons, take_zero]
    at hreads
  refine ⟨hreads, fun messages n hn => ?_⟩
  have hready' := (ready_ok hready).follows messages n hn 1 le_rfl
  have hsome : 1 - (ready.1.reader.buffer.length - ready.1.reader.pos) = 0 := by
    have := ready.2
    omega
  rw [hsome, afterData_zero] at hready'
  exact hready'.symm

theorem readByte_of_pending (h : session.pending ≠ []) :
    ∃ byte session', readByte session = .ok (byte, session') := by
  obtain ⟨ready, hready⟩ := ready_of_pending h
  unfold readByte
  rw [hready]
  exact ⟨_, _, rfl⟩

theorem readByte_pending {rest : Bytes} (h : session.pending = byte :: rest) :
    ∃ session', readByte session = .ok (byte, session') ∧ Reads session [byte] session' ∧
      session'.pending = rest := by
  obtain ⟨byte', session', hread⟩ := readByte_of_pending (by rw [h]; simp)
  have hreads := (readByte_ok hread).toReads
  have hpending := hreads.pending
  rw [h, singleton_append] at hpending
  obtain ⟨rfl, hrest⟩ := List.cons.inj hpending
  exact ⟨session', hread, hreads, hrest.symm⟩

/-! ### Blocks -/

variable {filled : Bytes}

theorem readExact_ok (h : readExact filled missing session = .ok (data, session')) :
    ∃ bytes, data = filled ++ bytes ∧ bytes.length = missing ∧ Reads session bytes session' := by
  fun_induction readExact filled missing session with
  | case1 filled session =>
    cases h
    exact ⟨[], by simp, rfl, Reads.refl _⟩
  | case2 => simp at h
  | case3 filled missing session hmissing ready hready available ih =>
    obtain ⟨bytes, rfl, hlength, hreads⟩ := ih h
    have hpos := ready.2
    refine ⟨(ready.1.reader.buffer.drop ready.1.reader.pos).take available ++ bytes,
      by rw [append_assoc], ?_, ?_⟩
    · rw [length_append, hlength, length_take, length_drop]
      omega
    · exact ((ready_ok hready).trans (advance_reads ready.1 available)).trans hreads

theorem readExact_of_pending {missing : ℕ} {session : Session}
    (h : missing ≤ session.pending.length) :
    ∃ data session', readExact filled missing session = .ok (data, session') := by
  fun_induction readExact filled missing session with
  | case1 filled session => exact ⟨_, _, rfl⟩
  | case2 filled missing session hmissing error hready =>
    have hne : session.pending ≠ [] := by
      intro hnil
      rw [hnil] at h
      simp only [length_nil] at h
      omega
    obtain ⟨ready, hready'⟩ := ready_of_pending hne
    rw [hready'] at hready
    simp at hready
  | case3 filled missing session hmissing ready hready available ih =>
    have hpos := ready.2
    refine ih ?_
    have hreads := (ready_ok hready).trans (advance_reads ready.1 available)
    have hlength := congrArg List.length hreads.pending
    rw [nil_append, length_append, length_take, length_drop] at hlength
    omega

/-! ### Lines and acknowledgements -/

variable {rules : TextRules}

theorem readLine_ok {line text : Bytes} (h : readLine rules line session = .ok (text, session'))
    (hline : line.length ≤ maxControlLineLength) :
    ∃ bytes, text = line ++ bytes ∧ 10 ∉ bytes ∧ Takes session (bytes ++ [10]) session' ∧
      text.length ≤ maxControlLineLength ∧ rules.validUtf8 text = true := by
  fun_induction readLine rules line session with
  | case1 => simp at h
  | case2 line session session₁ hvalid hread =>
    cases h
    exact ⟨[], by simp, by simp, readByte_ok hread, hline, hvalid⟩
  | case3 | case4 => simp at h
  | case5 line session byte session₁ hread hbyte hlength ih =>
    obtain ⟨bytes, rfl, hbytes, htakes, hrest⟩ := ih h (by rw [length_append]; simpa using hlength)
    refine ⟨byte :: bytes, by simp, ?_, (readByte_ok hread).toReads.takes htakes, hrest⟩
    simp only [mem_cons, not_or]
    exact ⟨fun heq => hbyte heq.symm, hbytes⟩

theorem readLine_pending {line bytes rest : Bytes} {session : Session}
    (h : session.pending = bytes ++ 10 :: rest) (hbytes : 10 ∉ bytes)
    (hlength : (line ++ bytes).length ≤ maxControlLineLength)
    (hvalid : rules.validUtf8 (line ++ bytes) = true) :
    ∃ session', readLine rules line session = .ok (line ++ bytes, session') ∧
      Reads session (bytes ++ [10]) session' ∧ session'.pending = rest := by
  induction bytes generalizing line session with
  | nil =>
    obtain ⟨session', hread, hreads, hrest⟩ := readByte_pending h
    rw [append_nil] at hvalid ⊢
    refine ⟨session', ?_, hreads, hrest⟩
    rw [readLine, hread]
    simp [hvalid]
  | cons byte bytes ih =>
    obtain ⟨session₁, hread, hreads, hpending⟩ := readByte_pending h
    have hbyte : byte ≠ 10 := fun heq => hbytes (heq ▸ mem_cons_self)
    have hmore : 10 ∉ bytes := fun hmem => hbytes (mem_cons_of_mem _ hmem)
    have happend : line ++ byte :: bytes = line ++ [byte] ++ bytes := by simp
    rw [happend] at hlength hvalid ⊢
    obtain ⟨session', hline, hreads', hrest⟩ := ih hpending hmore hlength hvalid
    refine ⟨session', ?_, hreads.trans hreads', hrest⟩
    have hshort : ¬maxControlLineLength < line.length + 1 := by
      simp only [length_append, length_singleton] at hlength
      omega
    rw [readLine, hread]
    simp only [hbyte, if_false, hshort, dif_neg, not_false_eq_true]
    exact hline

theorem readAck_success
    (h : readAck rules session = .ok (.success, session')) : Takes session [0] session' := by
  unfold readAck at h
  split at h
  · simp at h
  next byte session₁ hread =>
  split at h
  · next hzero =>
    cases h
    exact hzero ▸ readByte_ok hread
  split at h
  · split at h
    · simp at h
    · split at h <;> simp at h
  · simp at h

theorem expectSuccess_ok
    (h : expectSuccess rules session = .ok session') : Takes session [0] session' := by
  unfold expectSuccess at h
  split at h
  · simp at h
  · next hack =>
    cases h
    exact readAck_success hack
  · simp at h
  · simp at h

theorem readAck_pending {session : Session} {rest : Bytes} (h : session.pending = 0 :: rest) :
    ∃ session', readAck rules session = .ok (.success, session') ∧ Reads session [0] session' ∧
      session'.pending = rest := by
  obtain ⟨session', hread, hreads, hrest⟩ := readByte_pending h
  refine ⟨session', ?_, hreads, hrest⟩
  rw [readAck, hread]
  simp

theorem expectSuccess_pending {session : Session} {rest : Bytes} (h : session.pending = 0 :: rest) :
    ∃ session', expectSuccess rules session = .ok session' ∧ Reads session [0] session' ∧
      session'.pending = rest := by
  obtain ⟨session', hack, hreads, hrest⟩ := @readAck_pending rules _ _ h
  refine ⟨session', ?_, hreads, hrest⟩
  rw [expectSuccess, hack]

/-! ### The payload -/

theorem receive_ok {written : Bytes} (h : receive written missing session = .ok (data, session')) :
    ∃ bytes, data = written ++ bytes ∧ bytes.length = missing ∧ Reads session bytes session' := by
  fun_induction receive written missing session with
  | case1 written session =>
    cases h
    exact ⟨[], by simp, rfl, Reads.refl _⟩
  | case2 => simp at h
  | case3 written missing session hmissing block session₁ hread ih =>
    obtain ⟨bytes, rfl, hlength, hreads⟩ := ih h
    obtain ⟨block', hblock, hblockLength, hblockReads⟩ := readExact_ok hread
    rw [nil_append] at hblock
    subst hblock
    refine ⟨block ++ bytes, by rw [append_assoc], ?_, hblockReads.trans hreads⟩
    rw [length_append, hlength, hblockLength]
    omega

theorem receive_of_pending {written : Bytes} {missing : ℕ} {session : Session}
    (h : missing ≤ session.pending.length) :
    ∃ data session', receive written missing session = .ok (data, session') := by
  fun_induction receive written missing session with
  | case1 written session => exact ⟨_, _, rfl⟩
  | case2 written missing session hmissing error hread =>
    obtain ⟨data, session', hok⟩ :=
      @readExact_of_pending [] (min missing chunkSize) session (by omega)
    rw [hok] at hread
    simp at hread
  | case3 written missing session hmissing block session₁ hread ih =>
    obtain ⟨block', hblock, hblockLength, hblockReads⟩ := readExact_ok hread
    refine ih ?_
    have hlength := congrArg List.length hblockReads.pending
    rw [length_append] at hlength
    omega

theorem receive_pending {session : Session} {bytes rest : Bytes}
    (h : session.pending = bytes ++ rest) :
    ∃ session', receive [] bytes.length session = .ok (bytes, session') ∧
      Reads session bytes session' ∧ session'.pending = rest := by
  obtain ⟨data, session', hread⟩ :=
    @receive_of_pending [] bytes.length session (by rw [h, length_append]; omega)
  obtain ⟨bytes', hdata, hlength, hreads⟩ := receive_ok hread
  rw [nil_append] at hdata
  have hpending := hreads.pending
  rw [h] at hpending
  obtain ⟨rfl, hrest⟩ := append_inj hpending hlength.symm
  exact ⟨session', by rw [hread, hdata], hreads, hrest.symm⟩

/-! ### The exec reply -/

/-- `Failure` answers the exec request: nothing that counts as an answer comes before. -/
def execRefused : List ChannelMsg → Bool
  | .failure :: _ => true
  | .exitStatus _ :: queue => execRefused queue
  | .exitSignal _ _ :: queue => execRefused queue
  | .other :: queue => execRefused queue
  | _ => false

theorem execReply_ok (h : execReply messages = .ok (data, queue)) :
    dataUntilClose messages = data ++ dataUntilClose queue ∧ queue <:+ messages ∧
      execRefused messages = false ∧
      ∀ m, 1 ≤ m → afterData m messages = afterData (m - data.length) queue := by
  fun_induction execReply messages with
  | case1 | case3 | case5 | case6 => simp at h
  | case2 queue =>
    cases h
    exact ⟨rfl, suffix_cons _ _, rfl, afterData_cons (fun _ => rfl) fun _ _ => rfl⟩
  | case4 data queue =>
    cases h
    exact ⟨rfl, suffix_cons _ _, rfl, afterData_data _ _⟩
  | case7 _ _ ih | case8 _ _ _ ih | case9 _ ih =>
    obtain ⟨hdata, hqueue, haccepted, hafter⟩ := ih h
    exact ⟨hdata, hqueue.trans (suffix_cons _ _), haccepted, afterData_cons (fun _ => rfl) hafter⟩

theorem execReply_of_data (hdata : dataUntilClose messages ≠ [])
    (haccepted : execRefused messages = false) : ∃ reply, execReply messages = .ok reply := by
  fun_induction execReply messages with
  | case1 | case5 | case6 => exact absurd rfl hdata
  | case2 | case4 => exact ⟨_, rfl⟩
  | case3 => cases haccepted
  | case7 _ _ ih | case8 _ _ _ ih | case9 _ ih => exact ih hdata haccepted

theorem startSession_ok (h : startSession messages = .ok session) :
    session.pending = dataUntilClose messages ∧ session.sent = [] ∧ session.queue <:+ messages ∧
      execRefused messages = false ∧ Follows messages 0 session := by
  unfold startSession at h
  split at h
  · simp at h
  next data queue hreply =>
  cases h
  obtain ⟨hdata, hqueue, haccepted, hafter⟩ := execReply_ok hreply
  refine ⟨by rw [hdata]; rfl, rfl, hqueue, haccepted, fun m hm => ?_⟩
  rw [Nat.zero_add]
  exact hafter m hm

theorem startSession_of_data (hdata : dataUntilClose messages ≠ [])
    (haccepted : execRefused messages = false) : ∃ session, startSession messages = .ok session := by
  obtain ⟨⟨data, queue⟩, hreply⟩ := execReply_of_data hdata haccepted
  exact ⟨_, by rw [startSession, hreply]⟩

end Mecmcp.Scp

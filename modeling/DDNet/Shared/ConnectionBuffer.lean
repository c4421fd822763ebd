/-
The resend buffer of a connection over a whole run.

A vital chunk that `QueueChunk` accepts is saved in the resend buffer.  It stays there, with
its data, flags and sequence number, until `Feed` accepts a packet whose ack covers it
(`saved_until_acked`).  What the buffer holds is the list `saved`; an operation appends the
chunk that it queues and takes acknowledged chunks off the front (`step_saved`).
-/
import DDNet.Shared.Connection

namespace DDNet

open CNetPacketConstruct CRingBufferBase

/-- What must not change of a saved chunk: flags, data and sequence number. -/
def CNetChunkResend.chunk (chunk : CNetChunkResend) : ℕ × List UInt8 × ℕ :=
  (chunk.flags, chunk.data, chunk.sequence)

/-- An ack covers a sequence number: it is at most half of all numbers ahead of it. -/
def AckCovers (ack sequence : ℕ) : Prop :=
  ((ack : ℤ) - sequence) % netMaxSequence ≤ netMaxSequence / 2

lemma ackCovers_of_backroom {sequence ack : ℕ} (hseq : sequence < netMaxSequence)
    (h : isSeqInBackroom sequence ack = true) : AckCovers ack sequence := by
  have hmax : netMaxSequence = 1024 := rfl
  simp only [isSeqInBackroom, hmax] at h
  rw [AckCovers, hmax]
  rw [hmax] at hseq
  by_cases hbottom : (ack : ℤ) - ((1024 / 2 : ℕ) : ℤ) < 0
  · simp only [hbottom, if_true, Bool.or_eq_true, decide_eq_true_eq] at h
    omega
  · simp only [hbottom, if_false, Bool.and_eq_true, decide_eq_true_eq] at h
    omega

namespace CNetConnection

variable {Addr : Type*}

/-- The chunks in the resend buffer, oldest first. -/
def saved (conn : CNetConnection Addr) : List (ℕ × List UInt8 × ℕ) :=
  conn.buffer.values.map CNetChunkResend.chunk

/-- The buffer is a ring buffer that does not recycle, its chunks have sequence numbers in
range, and it is empty while the connection is offline. -/
structure BufferInv (conn : CNetConnection Addr) : Prop where
  holds : ∃ queue, Holds conn.buffer queue
  recycle : conn.buffer.recycle = false
  sequence : ∀ chunk ∈ conn.saved, chunk.2.2 < netMaxSequence
  offline : conn.state = .offline → conn.saved = []

/-- The invariant depends on the buffer and the state only. -/
lemma BufferInv.congr {conn conn' : CNetConnection Addr} (h : conn.BufferInv)
    (hbuffer : conn'.buffer = conn.buffer) (hstate : conn'.state = .offline → conn.state = .offline) :
    conn'.BufferInv := by
  have hsaved : conn'.saved = conn.saved := by rw [saved, hbuffer, saved]
  exact ⟨hbuffer ▸ h.holds, hbuffer ▸ h.recycle, hsaved ▸ h.sequence,
    fun hoff => hsaved.trans (h.offline (hstate hoff))⟩

lemma saved_congr {conn conn' : CNetConnection Addr} (hbuffer : conn'.buffer = conn.buffer) :
    conn'.saved = conn.saved := by
  rw [saved, hbuffer, saved]

/-- The invariant is kept, and the saved chunks are the same. -/
def Kept (conn conn' : CNetConnection Addr) : Prop := conn'.BufferInv ∧ conn'.saved = conn.saved

lemma Kept.congr {conn conn' : CNetConnection Addr} (h : conn.BufferInv)
    (hbuffer : conn'.buffer = conn.buffer) (hstate : conn'.state = .offline → conn.state = .offline) :
    conn.Kept conn' :=
  ⟨h.congr hbuffer hstate, saved_congr hbuffer⟩

lemma Kept.trans {conn conn' conn'' : CNetConnection Addr} (h : conn.Kept conn') (h' : conn'.Kept conn'') :
    conn.Kept conn'' :=
  ⟨h'.1, h'.2.trans h.2⟩

/-- A change of the chunks of the buffer that keeps what is saved of them. -/
lemma Kept.of_holds {conn conn' : CNetConnection Addr} (h : conn.BufferInv)
    {queue queue' : List (ℕ × CNetChunkResend)} (hholds : Holds conn.buffer queue)
    (hholds' : Holds conn'.buffer queue') (hrecycle : conn'.buffer.recycle = conn.buffer.recycle)
    (hchunks : queue'.map (fun x => x.2.chunk) = queue.map fun x => x.2.chunk)
    (hstate : conn'.state = .offline → conn.state = .offline) : conn.Kept conn' := by
  have hsaved : conn'.saved = conn.saved := by
    rw [saved, saved, values_eq hholds', values_eq hholds, List.map_map, List.map_map]
    exact hchunks
  exact ⟨⟨⟨queue', hholds'⟩, hrecycle.trans h.recycle, hsaved ▸ h.sequence,
    fun hoff => hsaved.trans (h.offline (hstate hoff))⟩, hsaved⟩

lemma initBuffer_values : initBuffer.values = [] := by
  exact values_eq (init_holds netConnBuffersize false : Holds initBuffer [])

/-- A connection with a fresh buffer. -/
lemma bufferInv_init {conn : CNetConnection Addr} (h : conn.buffer = initBuffer) : conn.BufferInv := by
  have hsaved : conn.saved = [] := by rw [saved, h, initBuffer_values]; rfl
  exact ⟨⟨[], h ▸ init_holds _ _⟩, by rw [h]; rfl, by simp [hsaved], fun _ => hsaved⟩

/-! ### Sending -/

lemma flush_buffer (conn : CNetConnection Addr) (now : ℤ) :
    (conn.flush now).1.buffer = conn.buffer ∧ (conn.flush now).1.state = conn.state ∧
      (conn.flush now).1.sequence = conn.sequence := by
  rw [flush]
  split_ifs <;> exact ⟨rfl, rfl, rfl⟩

lemma makeRoom_buffer (conn : CNetConnection Addr) (size : ℕ) (now : ℤ) :
    (conn.makeRoom size now).buffer = conn.buffer ∧ (conn.makeRoom size now).state = conn.state ∧
      (conn.makeRoom size now).sequence = conn.sequence := by
  rw [makeRoom]
  split_ifs
  · exact flush_buffer conn now
  · exact ⟨rfl, rfl, rfl⟩

/-- The state in which `QueueChunkEx` has packed the chunk. -/
lemma queueChunkEx_eq {conn : CNetConnection Addr} (flags : ℕ) (data : List UInt8) (sequence : ℕ) (now : ℤ)
    (honline : (conn.state = .offline || conn.state = .error) = false) :
    ∃ packed : CNetConnection Addr, packed.buffer = conn.buffer ∧ packed.state = conn.state ∧
      packed.sequence = conn.sequence ∧
      conn.queueChunkEx flags data sequence now =
        if isSaved flags then packed.saveChunk flags data sequence now else (packed, true) := by
  obtain ⟨hbuffer, hstate, hsequence⟩ := makeRoom_buffer conn data.length now
  rw [queueChunkEx, honline, if_neg (by simp)]
  exact ⟨(conn.makeRoom data.length now).packChunk ⟨flags, data.length, sequence⟩ data, hbuffer, hstate,
    hsequence, rfl⟩

/-- What `QueueChunkEx` does to the buffer: the chunk is saved behind the others, or nothing
changes. -/
lemma queueChunkEx_saved {conn : CNetConnection Addr} (h : conn.BufferInv) (flags : ℕ) (data : List UInt8)
    {sequence : ℕ} (hseq : isSaved flags = true → sequence < netMaxSequence) (now : ℤ) :
    (conn.queueChunkEx flags data sequence now).1.BufferInv ∧
      (conn.queueChunkEx flags data sequence now).1.state = conn.state ∧
      (if isSaved flags && (conn.queueChunkEx flags data sequence now).2 then
        (conn.queueChunkEx flags data sequence now).1.saved = conn.saved ++ [(flags, data, sequence)]
      else (conn.queueChunkEx flags data sequence now).1.buffer = conn.buffer) := by
  rcases hstate : (decide (conn.state = .offline) || decide (conn.state = .error)) with _ | _
  · obtain ⟨packed, hbuffer, hpstate, -, heq⟩ := queueChunkEx_eq flags data sequence now hstate
    rw [heq, saveChunk, hbuffer]
    rcases hsave : isSaved flags with _ | _
    · simp only [Bool.false_eq_true, if_false, Bool.false_and]
      exact ⟨h.congr hbuffer fun hoff => hpstate ▸ hoff, hpstate, hbuffer⟩
    · obtain ⟨queue, hholds⟩ := h.holds
      obtain ⟨popped, rest, hqueue, hpopped, hsame, hok, hfail⟩ := allocate_spec hholds
        (chunkResendSize + data.length) (⟨flags, data, sequence, now, now⟩ : CNetChunkResend)
      obtain rfl : rest = queue := by rw [hqueue, hpopped h.recycle]; rfl
      simp only [if_true, Bool.true_and]
      rcases hres : conn.buffer.allocate (chunkResendSize + data.length)
        (⟨flags, data, sequence, now, now⟩ : CNetChunkResend) with ⟨buffer, ok⟩
      rw [hres] at hok hfail hsame
      cases ok with
      | true =>
        obtain ⟨s, -, hnew⟩ := hok rfl
        have hsaved : ({ packed with buffer := buffer } : CNetConnection Addr).saved =
            conn.saved ++ [(flags, data, sequence)] := by
          rw [saved, values_eq hnew, saved, values_eq hholds]
          simp [CNetChunkResend.chunk]
        refine ⟨⟨⟨_, hnew⟩, hsame.2.1.trans h.recycle, ?_, ?_⟩, hpstate, by simpa using hsaved⟩
        · intro chunk hchunk
          rw [hsaved] at hchunk
          rcases List.mem_append.1 hchunk with hold | hlast
          · exact h.sequence chunk hold
          · obtain rfl : chunk = (flags, data, sequence) := by simpa using hlast
            exact hseq hsave
        · intro hoff
          have hcontra : conn.state = .offline := hpstate ▸ hoff
          simp [hcontra] at hstate
      | false =>
        obtain ⟨-, hkeep⟩ := hfail rfl
        have hbuf : buffer = conn.buffer := hkeep h.recycle
        exact ⟨h.congr hbuf fun hoff => hpstate ▸ hoff, hpstate, by simpa using hbuf⟩
  · have hret : conn.queueChunkEx flags data sequence now = (conn, false) := by
      rw [queueChunkEx, hstate, if_pos rfl]
    rw [hret]
    exact ⟨h, rfl, by simp⟩

lemma isSaved_resend (flags : ℕ) : isSaved (flags ||| netChunkflagResend) = false := by
  have hand : (flags ||| netChunkflagResend) &&& netChunkflagResend = netChunkflagResend := by
    apply Nat.eq_of_testBit_eq
    intro i
    rw [Nat.testBit_and, Nat.testBit_or]
    cases flags.testBit i <;> cases netChunkflagResend.testBit i <;> rfl
  rw [isSaved, hand]
  simp [netChunkflagResend]

/-- A chunk that is sent again is not saved again. -/
lemma resendChunk_buffer (conn : CNetConnection Addr) (chunk : CNetChunkResend) (now : ℤ) :
    (conn.resendChunk chunk now).buffer = conn.buffer ∧ (conn.resendChunk chunk now).state = conn.state ∧
      (conn.resendChunk chunk now).sequence = conn.sequence := by
  rw [resendChunk]
  rcases hstate : (decide (conn.state = .offline) || decide (conn.state = .error)) with _ | _
  · obtain ⟨packed, hbuffer, hpstate, hpseq, heq⟩ := queueChunkEx_eq
      (chunk.flags ||| netChunkflagResend) chunk.data chunk.sequence now hstate
    rw [heq, isSaved_resend]
    exact ⟨hbuffer, hpstate, hpseq⟩
  · rw [queueChunkEx, hstate, if_pos rfl]
    exact ⟨rfl, rfl, rfl⟩

lemma foldl_resendChunk_buffer (chunks : List CNetChunkResend) (conn : CNetConnection Addr) (now : ℤ) :
    (chunks.foldl (fun conn chunk => conn.resendChunk chunk now) conn).buffer = conn.buffer ∧
      (chunks.foldl (fun conn chunk => conn.resendChunk chunk now) conn).state = conn.state ∧
      (chunks.foldl (fun conn chunk => conn.resendChunk chunk now) conn).sequence = conn.sequence := by
  induction chunks generalizing conn with
  | nil => exact ⟨rfl, rfl, rfl⟩
  | cons chunk chunks ih =>
    obtain ⟨h1, h2, h3⟩ := resendChunk_buffer conn chunk now
    obtain ⟨h1', h2', h3'⟩ := ih (conn.resendChunk chunk now)
    exact ⟨h1'.trans h1, h2'.trans h2, h3'.trans h3⟩

/-- `Resend` changes the times of the saved chunks only. -/
lemma resend_kept {conn : CNetConnection Addr} (h : conn.BufferInv) (now : ℤ) : conn.Kept (conn.resend now) := by
  obtain ⟨queue, hholds⟩ := h.holds
  obtain ⟨hbuffer, hstate, -⟩ := foldl_resendChunk_buffer conn.buffer.values conn now
  rw [← hbuffer] at hholds
  have hmap := mapValues_holds hholds fun chunk : CNetChunkResend => { chunk with lastSendTime := now }
  rw [hbuffer] at hholds
  have hrecycle := congrArg CRingBufferBase.recycle hbuffer
  exact .of_holds h hholds hmap hrecycle
    (by simp [Function.comp_def, CNetChunkResend.chunk]) fun hoff => hstate ▸ hoff

/-! ### Acknowledgements -/

/-- The loop of `AckChunks` takes covered chunks off the front. -/
lemma ackChunksLoop_spec {fuel : ℕ} {buffer : CRingBufferBase CNetChunkResend}
    {queue : List (ℕ × CNetChunkResend)} (h : Holds buffer queue) (ack : ℕ) :
    ∃ dropped rest, queue = dropped ++ rest ∧ Holds (ackChunksLoop fuel buffer ack) rest ∧
      SameMemory buffer (ackChunksLoop fuel buffer ack) ∧
      ∀ x ∈ dropped, isSeqInBackroom x.2.sequence ack = true := by
  induction fuel generalizing buffer queue with
  | zero => exact ⟨[], queue, rfl, h, ⟨rfl, rfl, rfl⟩, by simp⟩
  | succ fuel ih =>
    rw [ackChunksLoop, first_spec h]
    cases queue with
    | nil => exact ⟨[], [], rfl, h, ⟨rfl, rfl, rfl⟩, by simp⟩
    | cons x queue =>
      simp only [List.head?_cons, Option.map_some]
      split_ifs with hback
      · obtain ⟨-, hpop, hsame⟩ := popFirst_spec h
        obtain ⟨dropped, rest, rfl, hrest, hsame', hcovered⟩ := ih hpop
        refine ⟨x :: dropped, rest, rfl, hrest,
          ⟨hsame'.1.trans hsame.1, hsame'.2.1.trans hsame.2.1, hsame'.2.2.trans hsame.2.2⟩, ?_⟩
        intro y hy
        rcases List.mem_cons.1 hy with rfl | hy
        · exact hback
        · exact hcovered y hy
      · exact ⟨[], x :: queue, rfl, h, ⟨rfl, rfl, rfl⟩, by simp⟩

/-- `AckChunks` drops only chunks that the ack covers, from the front. -/
lemma ackChunks_saved {conn : CNetConnection Addr} (h : conn.BufferInv) (ack : ℕ) :
    (conn.ackChunks ack).BufferInv ∧ (conn.ackChunks ack).state = conn.state ∧
      ∃ dropped, conn.saved = dropped ++ (conn.ackChunks ack).saved ∧
        ∀ chunk ∈ dropped, AckCovers ack chunk.2.2 := by
  obtain ⟨queue, hholds⟩ := h.holds
  obtain ⟨dropped, rest, rfl, hrest, hsame, hcovered⟩ :=
    ackChunksLoop_spec hholds ack
  have hsaved : conn.saved = dropped.map (fun x => x.2.chunk) ++ (conn.ackChunks ack).saved := by
    rw [saved, values_eq hholds, ackChunks, saved, values_eq hrest]
    simp [Function.comp_def]
  have hsub : ∀ chunk ∈ (conn.ackChunks ack).saved, chunk ∈ conn.saved := fun chunk hchunk => by
    rw [hsaved]
    exact List.mem_append_right _ hchunk
  refine ⟨⟨⟨rest, hrest⟩, hsame.2.1.trans h.recycle, fun chunk hchunk => h.sequence chunk (hsub chunk hchunk),
    fun hoff => ?_⟩, rfl, _, hsaved, ?_⟩
  · have hnil := h.offline hoff
    rw [hsaved] at hnil
    exact (List.append_eq_nil_iff.1 hnil).2
  · intro chunk hchunk
    have hbound := h.sequence chunk (by rw [hsaved]; exact List.mem_append_left _ hchunk)
    obtain ⟨x, hx, rfl⟩ := List.mem_map.1 hchunk
    exact ackCovers_of_backroom hbound (hcovered x hx)

lemma feedAck_saved {conn : CNetConnection Addr} (h : conn.BufferInv) (ack : ℕ) (now : ℤ) :
    (conn.feedAck ack now).BufferInv ∧
      ∃ dropped, conn.saved = dropped ++ (conn.feedAck ack now).saved ∧
        ∀ chunk ∈ dropped, AckCovers ack chunk.2.2 := by
  rw [feedAck]
  split_ifs
  · have hrecv : ({ conn with lastRecvTime := now } : CNetConnection Addr).BufferInv := h.congr rfl id
    obtain ⟨hinv, -, hdropped⟩ := ackChunks_saved hrecv ack
    exact ⟨hinv, hdropped⟩
  · exact ⟨h, [], rfl, by simp⟩

/-! ### The operations of a run -/

variable [DecidableEq Addr] (env : NetEnv Addr)

/-- A control message keeps the saved chunks; only an offline connection is reset, and it has
none. -/
lemma feedControl_saved {conn : CNetConnection Addr} (h : conn.BufferInv) (packet : CNetPacketConstruct)
    (addr : Addr) (responseToken : SecurityToken) (now : ℤ) :
    conn.Kept (conn.feedControl env packet addr responseToken now).1 := by
  have hkeep : conn.Kept conn := ⟨h, rfl⟩
  simp only [feedControl]
  by_cases hclose : packet.chunkData.getD 0 0 = netCtrlmsgClose
  · simp only [if_pos hclose]
    generalize (if conn.state ≠ .connect then decide (conn.peerAddr = addr)
      else conn.connectAddrs.contains addr) = isPeer
    cases isPeer with
    | true => exact ⟨h.congr rfl nofun, rfl⟩
    | false => exact hkeep
  rw [if_neg hclose]
  by_cases htoken : packet.chunkData.getD 0 0 = netCtrlmsgToken
  · rw [if_pos htoken]
    by_cases hstate : conn.state = .token
    · rw [if_pos hstate]
      exact ⟨h.congr rfl nofun, rfl⟩
    · rw [if_neg hstate]
      exact hkeep
  rw [if_neg htoken]
  rcases hstate : conn.state <;> simp only
  case offline =>
    by_cases hconnect : packet.chunkData.getD 0 0 = netCtrlmsgConnect
    · rw [if_pos hconnect]
      split_ifs
      · exact hkeep
      · -- the connection is reset: it was offline, so nothing was saved
        have hreset : ∀ conn' : CNetConnection Addr, conn'.buffer = initBuffer → conn.Kept conn' :=
          fun conn' hbuffer => by
            refine ⟨bufferInv_init hbuffer, ?_⟩
            rw [h.offline hstate, saved, hbuffer, initBuffer_values]
            rfl
        exact hreset _ rfl
    · rw [if_neg hconnect]
      exact hkeep
  case connect =>
    by_cases haccept : packet.chunkData.getD 0 0 = netCtrlmsgConnectaccept
    · rw [if_pos haccept]
      have hsame : ∀ conn' : CNetConnection Addr, conn'.buffer = conn.buffer → conn'.state = .online →
          conn.Kept conn' := fun conn' hbuffer honline =>
        ⟨h.congr hbuffer (by rw [honline]; nofun), saved_congr hbuffer⟩
      refine hsame _ ?_ rfl
      simp only [apply_ite CNetConnection.buffer, sendControl, send, ite_self]
    · rw [if_neg haccept]
      exact hkeep
  all_goals exact hkeep

/-- What `Feed` may do to the saved chunks when it returns `result`. -/
def Acked (conn : CNetConnection Addr) (ack : ℕ) (result : Bool) (conn' : CNetConnection Addr) : Prop :=
  conn'.BufferInv ∧ (result = false → conn'.saved = conn.saved) ∧
    ∃ dropped, conn.saved = dropped ++ conn'.saved ∧ ∀ chunk ∈ dropped, AckCovers ack chunk.2.2

omit [DecidableEq Addr] in
lemma Acked.of_saved {conn conn' : CNetConnection Addr} (h : conn'.BufferInv)
    (hsaved : conn'.saved = conn.saved) (ack : ℕ) (result : Bool) : conn.Acked ack result conn' :=
  ⟨h, fun _ => hsaved, [], hsaved.symm, by simp⟩

omit [DecidableEq Addr] in
lemma Acked.of_feedAck {conn conn' : CNetConnection Addr} (h : conn'.BufferInv)
    (hsaved : conn'.saved = conn.saved) (ack : ℕ) (now : ℤ) : conn.Acked ack true (conn'.feedAck ack now) := by
  obtain ⟨hinv, dropped, hdropped, hcovered⟩ := feedAck_saved h ack now
  exact ⟨hinv, by simp, dropped, hsaved ▸ hdropped, hcovered⟩

lemma feedAccepted_saved {conn : CNetConnection Addr} (h : conn.BufferInv) (packet : CNetPacketConstruct)
    (addr : Addr) (responseToken : SecurityToken) (now : ℤ) :
    conn.Acked packet.ack (conn.feedAccepted env packet addr responseToken now).2
      (conn.feedAccepted env packet addr responseToken now).1 := by
  rw [feedAccepted]
  have hpeer : ({ conn with peerAck := packet.ack } : CNetConnection Addr).BufferInv := h.congr rfl id
  generalize hres : (if hasFlag packet.flags netPacketflagResend = true then
    ({ conn with peerAck := packet.ack } : CNetConnection Addr).resend now
    else { conn with peerAck := packet.ack }) = resent
  obtain ⟨hinv, hsaved⟩ : resent.BufferInv ∧ resent.saved = conn.saved := by
    subst hres
    split_ifs
    · exact resend_kept hpeer now
    · exact ⟨hpeer, rfl⟩
  by_cases hcontrol : hasFlag packet.flags netPacketflagControl = true
  · simp only [if_pos hcontrol]
    obtain ⟨hfed, hsame⟩ : resent.Kept _ := feedControl_saved env hinv packet addr responseToken now
    rcases hfeed : resent.feedControl env packet addr responseToken now with ⟨fed, _ | _⟩ <;>
      rw [hfeed] at hfed hsame
    · exact .of_saved hfed (hsame.trans hsaved) _ _
    · exact .of_feedAck hfed (hsame.trans hsaved) _ _
  · simp only [if_neg hcontrol]
    by_cases hpending : resent.state = .pending
    · rw [if_pos hpending]
      have honline : ({ resent with lastRecvTime := now, state := .online } : CNetConnection Addr).BufferInv :=
        hinv.congr rfl nofun
      exact .of_feedAck honline hsaved _ _
    · rw [if_neg hpending]
      exact .of_feedAck hinv hsaved _ _

/-- `Feed` keeps the saved chunks, but for those that the ack of an accepted packet covers. -/
lemma feed_saved {conn : CNetConnection Addr} (h : conn.BufferInv) (packet : CNetPacketConstruct)
    (addr : Addr) (securityToken responseToken : SecurityToken) (now : ℤ) :
    conn.Acked packet.ack (conn.feed env packet addr securityToken responseToken now).2.2
      (conn.feed env packet addr securityToken responseToken now).1 := by
  have hkeep : conn.Acked packet.ack false conn := .of_saved h rfl _ _
  have hack : (conn.stripToken packet).1.ack = packet.ack := by
    rw [stripToken]
    split_ifs <;> rfl
  rw [feed]
  by_cases haddr : (conn.state ≠ .offline && conn.state ≠ .connect && addr ≠ conn.peerAddr) = true
  · rw [if_pos haddr]
    exact hkeep
  rw [if_neg haddr]
  rcases hstrip : conn.stripToken packet with ⟨stripped, _ | _⟩
  · exact hkeep
  · rw [hstrip] at hack
    by_cases htoken : (conn.sixup && securityToken ≠ conn.token) = true
    · simp only [if_pos htoken]
      exact hkeep
    simp only [if_neg htoken]
    by_cases hvalid : (!ackValid conn.sequence conn.peerAck stripped.ack) = true
    · rw [if_pos hvalid]
      exact hkeep
    rw [if_neg hvalid, ← hack]
    exact feedAccepted_saved env h stripped addr responseToken now

/-! ### Runs -/

omit [DecidableEq Addr] in
lemma updateResend_kept {conn : CNetConnection Addr} (h : conn.BufferInv) (now : ℤ) :
    conn.Kept (conn.updateResend env now) := by
  obtain ⟨queue, hholds⟩ := h.holds
  rw [updateResend, first_spec hholds]
  cases queue with
  | nil => exact ⟨h, rfl⟩
  | cons x queue =>
    simp only [List.head?_cons, Option.map_some]
    by_cases hold : now - x.2.firstSendTime > timeFreq * env.connTimeout
    · rw [if_pos hold]
      exact .congr h rfl nofun
    rw [if_neg hold]
    by_cases hresend : now - x.2.lastSendTime > timeFreq
    · rw [if_pos hresend]
      obtain ⟨hbuffer, hstate, -⟩ := resendChunk_buffer conn x.2 now
      rw [← hbuffer] at hholds
      have hmap := mapFirst_holds hholds fun chunk : CNetChunkResend => { chunk with lastSendTime := now }
      rw [hbuffer] at hholds
      have hrecycle := congrArg CRingBufferBase.recycle hbuffer
      exact .of_holds h hholds hmap hrecycle rfl fun hoff => hstate ▸ hoff
    · rw [if_neg hresend]
      exact ⟨h, rfl⟩

omit [DecidableEq Addr] in
lemma updateSend_kept {conn : CNetConnection Addr} (h : conn.BufferInv) (now : ℤ) :
    conn.Kept (conn.updateSend now) := by
  obtain ⟨hbuffer, hstate, -⟩ := flush_buffer conn now
  rcases hconn : conn.state <;> simp only [updateSend, hconn]
  case online =>
    have hflush : conn.Kept (if now - conn.lastSendTime > timeFreq / 2 then (conn.flush now).1 else conn) := by
      split_ifs
      · exact .congr h hbuffer fun hoff => hstate ▸ hoff
      · exact ⟨h, rfl⟩
    generalize (if now - conn.lastSendTime > timeFreq / 2 then (conn.flush now).1 else conn) = flushed at hflush
    refine hflush.trans ?_
    split_ifs
    · exact .congr hflush.1 rfl id
    · exact ⟨hflush.1, rfl⟩
  case connect =>
    split_ifs
    · exact .congr h rfl id
    · exact ⟨h, rfl⟩
  case pending =>
    split_ifs
    · exact .congr h rfl id
    · exact ⟨h, rfl⟩
  all_goals exact ⟨h, rfl⟩

omit [DecidableEq Addr] in
lemma update_kept {conn : CNetConnection Addr} (h : conn.BufferInv) (now : ℤ) :
    conn.Kept (conn.update env now) := by
  simp only [update]
  have hprotect : conn.Kept (if (decide (conn.state = .error) && conn.timeoutSituation &&
      decide (now - conn.lastRecvTime > timeFreq * env.connTimeoutProtection)) = true then
      { conn with timeoutSituation := false } else conn) := by
    split_ifs
    · exact .congr h rfl id
    · exact ⟨h, rfl⟩
  generalize (if (decide (conn.state = .error) && conn.timeoutSituation &&
    decide (now - conn.lastRecvTime > timeFreq * env.connTimeoutProtection)) = true then
    { conn with timeoutSituation := false } else conn) = conn₁ at hprotect
  refine hprotect.trans ?_
  by_cases hstate : (decide (conn₁.state = .offline) || decide (conn₁.state = .error)) = true
  · rw [if_pos hstate]
    exact ⟨hprotect.1, rfl⟩
  rw [if_neg hstate]
  have htimeout : conn₁.Kept (if (decide (conn₁.state ≠ .connect) &&
      decide (now - conn₁.lastRecvTime > timeFreq * env.connTimeout)) = true then
      { conn₁ with timeoutSituation := true, state := .error }
      else { conn₁ with timeoutSituation := false }) := by
    split_ifs
    · exact .congr hprotect.1 rfl nofun
    · exact .congr hprotect.1 rfl id
  have hresend := updateResend_kept env htimeout.1 now
  exact (htimeout.trans hresend).trans (updateSend_kept hresend.1 now)

/-- An operation of a connection. -/
inductive ConnOp (Addr : Type*) where
  | queueChunk (flags : ℕ) (data : List UInt8) (now : ℤ)
  | flush (now : ℤ)
  | update (now : ℤ)
  | resend (now : ℤ)
  | feed (packet : CNetPacketConstruct) (addr : Addr) (securityToken responseToken : SecurityToken) (now : ℤ)

/-- The connection after an operation. -/
def step (conn : CNetConnection Addr) : ConnOp Addr → CNetConnection Addr
  | .queueChunk flags data now => (conn.queueChunk flags data now).1
  | .flush now => (conn.flush now).1
  | .update now => conn.update env now
  | .resend now => conn.resend now
  | .feed packet addr securityToken responseToken now =>
      (conn.feed env packet addr securityToken responseToken now).1

/-- The connection after a run. -/
def run (conn : CNetConnection Addr) (ops : List (ConnOp Addr)) : CNetConnection Addr :=
  ops.foldl (step env) conn

/-- The operation is a `Feed` that accepts a packet whose ack covers the sequence number. -/
def Acknowledges (conn : CNetConnection Addr) (op : ConnOp Addr) (sequence : ℕ) : Prop :=
  match op with
  | .feed packet addr securityToken responseToken now =>
      (conn.feed env packet addr securityToken responseToken now).2.2 = true ∧ AckCovers packet.ack sequence
  | _ => False

omit [DecidableEq Addr] in
/-- `QueueChunk` gives a vital chunk the next sequence number. -/
lemma queueChunk_vital {conn : CNetConnection Addr} {flags : ℕ} (h : flags &&& netChunkflagVital ≠ 0)
    (data : List UInt8) (now : ℤ) :
    conn.queueChunk flags data now =
      ({ conn with sequence := (conn.sequence + 1) % netMaxSequence } : CNetConnection Addr).queueChunkEx
        flags data ((conn.sequence + 1) % netMaxSequence) now := by
  simp only [queueChunk, if_pos h]

omit [DecidableEq Addr] in
lemma queueChunk_nonvital {conn : CNetConnection Addr} {flags : ℕ} (h : ¬flags &&& netChunkflagVital ≠ 0)
    (data : List UInt8) (now : ℤ) :
    conn.queueChunk flags data now = conn.queueChunkEx flags data conn.sequence now := by
  simp only [queueChunk, if_neg h]

omit [DecidableEq Addr] in
lemma queueChunk_saved {conn : CNetConnection Addr} (h : conn.BufferInv) (flags : ℕ) (data : List UInt8)
    (now : ℤ) :
    (conn.queueChunk flags data now).1.BufferInv ∧
      (if isSaved flags && (conn.queueChunk flags data now).2 then
        (conn.queueChunk flags data now).1.saved =
          conn.saved ++ [(flags, data, (conn.sequence + 1) % netMaxSequence)]
      else (conn.queueChunk flags data now).1.buffer = conn.buffer) := by
  by_cases hvital : flags &&& netChunkflagVital ≠ 0
  · rw [queueChunk_vital hvital]
    have hnext : ({ conn with sequence := (conn.sequence + 1) % netMaxSequence } :
        CNetConnection Addr).BufferInv := h.congr rfl id
    obtain ⟨hinv, -, hsaved⟩ := queueChunkEx_saved hnext flags data
      (fun _ => Nat.mod_lt _ (by decide)) now
    exact ⟨hinv, hsaved⟩
  · rw [queueChunk_nonvital hvital]
    have hnot : isSaved flags = false := by
      rw [isSaved, Bool.and_eq_false_iff]
      exact .inl (by simpa using hvital)
    obtain ⟨hinv, -, hsaved⟩ := queueChunkEx_saved h flags data
      (fun hsaved => absurd hsaved (by simp [hnot])) now
    rw [hnot] at hsaved ⊢
    exact ⟨hinv, hsaved⟩

/-- The chunk that an operation saves. -/
def newlySaved (conn : CNetConnection Addr) : ConnOp Addr → List (ℕ × List UInt8 × ℕ)
  | .queueChunk flags data now =>
      if isSaved flags && (conn.queueChunk flags data now).2 then
        [(flags, data, (conn.sequence + 1) % netMaxSequence)]
      else []
  | _ => []

/-- The chunks that a run saves, in order. -/
def savedBy (conn : CNetConnection Addr) : List (ConnOp Addr) → List (ℕ × List UInt8 × ℕ)
  | [] => []
  | op :: ops => conn.newlySaved op ++ (conn.step env op).savedBy ops

/-- One operation appends what it saves and drops what it acknowledges. -/
lemma step_saved {conn : CNetConnection Addr} (h : conn.BufferInv) (op : ConnOp Addr) :
    (conn.step env op).BufferInv ∧
      ∃ dropped, conn.saved ++ conn.newlySaved op = dropped ++ (conn.step env op).saved ∧
        ∀ chunk ∈ dropped, conn.Acknowledges env op chunk.2.2 := by
  have hkept : ∀ conn' : CNetConnection Addr, conn.Kept conn' → conn'.BufferInv ∧
      ∃ dropped, conn.saved ++ [] = dropped ++ conn'.saved ∧
        ∀ chunk ∈ dropped, conn.Acknowledges env op chunk.2.2 :=
    fun conn' hconn' => ⟨hconn'.1, [], by simp [hconn'.2], by simp⟩
  cases op with
  | queueChunk flags data now =>
    obtain ⟨hinv, hsaved⟩ := queueChunk_saved h flags data now
    refine ⟨hinv, [], ?_, by simp⟩
    rw [step, newlySaved]
    split_ifs at hsaved ⊢
    · exact hsaved.symm
    · rw [saved_congr hsaved, List.append_nil, List.nil_append]
  | flush now =>
    obtain ⟨hbuffer, hstate, -⟩ := flush_buffer conn now
    exact hkept _ (.congr h hbuffer fun hoff => hstate ▸ hoff)
  | update now => exact hkept _ (update_kept env h now)
  | resend now => exact hkept _ (resend_kept h now)
  | feed packet addr securityToken responseToken now =>
    obtain ⟨hinv, hrejected, dropped, hdropped, hcovered⟩ :=
      feed_saved env h packet addr securityToken responseToken now
    rcases hresult : (conn.feed env packet addr securityToken responseToken now).2.2
    · exact hkept _ ⟨hinv, hrejected hresult⟩
    · exact ⟨hinv, dropped, by simpa [newlySaved, step] using hdropped,
        fun chunk hchunk => ⟨hresult, hcovered chunk hchunk⟩⟩

/-- Over a run, a saved chunk stays in front of the chunks that were saved after it, unless an
operation of the run acknowledges it. -/
lemma run_saved {conn : CNetConnection Addr} (h : conn.BufferInv) (ops : List (ConnOp Addr)) :
    (conn.run env ops).BufferInv ∧
      ∀ chunk later, chunk :: later <:+ conn.saved →
        chunk :: (later ++ conn.savedBy env ops) <:+ (conn.run env ops).saved ∨
        ∃ pre op post, ops = pre ++ op :: post ∧ (conn.run env pre).Acknowledges env op chunk.2.2 := by
  induction ops generalizing conn with
  | nil => exact ⟨h, fun chunk later hchunk => .inl (by simpa [savedBy, run] using hchunk)⟩
  | cons op ops ih =>
    obtain ⟨hstep, dropped, hsaved, hack⟩ := step_saved env h op
    obtain ⟨hinv, hrun⟩ := ih hstep
    refine ⟨hinv, fun chunk later ⟨before, hbefore⟩ => ?_⟩
    rw [← hbefore, List.append_assoc] at hsaved
    have hkept : ∀ rest, (conn.step env op).saved = rest ++ (chunk :: (later ++ conn.newlySaved op)) →
        chunk :: (later ++ conn.savedBy env (op :: ops)) <:+ (conn.run env (op :: ops)).saved ∨
        ∃ pre op' post, op :: ops = pre ++ op' :: post ∧
          (conn.run env pre).Acknowledges env op' chunk.2.2 := fun rest hrest => by
      rcases hrun chunk (later ++ conn.newlySaved op) ⟨rest, hrest.symm⟩ with hlast | ⟨pre, op', post, rfl, hack⟩
      · exact .inl (by rwa [savedBy, ← List.append_assoc])
      · exact .inr ⟨op :: pre, op', post, rfl, hack⟩
    -- either the dropped chunks end before this one, or it is among them
    rcases List.append_eq_append_iff.1 hsaved with ⟨more, rfl, hmore⟩ | ⟨rest, rfl, hrest⟩
    · cases more with
      | nil => exact hkept [] hmore.symm
      | cons chunk' more =>
        obtain ⟨rfl, -⟩ : chunk = chunk' ∧ _ := by simpa using hmore
        exact .inr ⟨[], op, ops, rfl, hack chunk (by simp)⟩
    · exact hkept rest hrest

/-- In every run of a connection, a vital chunk that `QueueChunk` has accepted stays in the
resend buffer, with its flags, data and sequence number and in front of the chunks accepted
later, until `Feed` accepts a packet whose ack covers its sequence number.  `AckChunks` drops
only chunks that the ack covers, and a `QueueChunk` that fails leaves the resend buffer as it
is. -/
theorem saved_until_acked (conn : CNetConnection Addr) (hinit : conn.buffer = initBuffer)
    (pre : List (ConnOp Addr)) :
    (∀ flags data now post, isSaved flags = true →
      ((conn.run env pre).queueChunk flags data now).2 = true →
      (flags, data, ((conn.run env pre).sequence + 1) % netMaxSequence) ::
            ((conn.run env pre).queueChunk flags data now).1.savedBy env post <:+
          (conn.run env (pre ++ .queueChunk flags data now :: post)).saved ∨
        ∃ between op after, post = between ++ op :: after ∧
          (conn.run env (pre ++ .queueChunk flags data now :: between)).Acknowledges env op
            (((conn.run env pre).sequence + 1) % netMaxSequence)) ∧
    (∀ ack, ∃ dropped,
      (conn.run env pre).saved = dropped ++ ((conn.run env pre).ackChunks ack).saved ∧
        ∀ chunk ∈ dropped, AckCovers ack chunk.2.2) ∧
    (∀ flags data now, ((conn.run env pre).queueChunk flags data now).2 = false →
      ((conn.run env pre).queueChunk flags data now).1.buffer = (conn.run env pre).buffer) := by
  obtain ⟨hinv, -⟩ := run_saved env (bufferInv_init hinit) pre
  refine ⟨fun flags data now post hflags hok => ?_, fun ack => ?_, fun flags data now hfail => ?_⟩
  · obtain ⟨hqueued, hsaved⟩ := queueChunk_saved hinv flags data now
    rw [hflags, hok, Bool.true_and, if_pos rfl] at hsaved
    have happend : ∀ ops, conn.run env (pre ++ .queueChunk flags data now :: ops) =
        ((conn.run env pre).queueChunk flags data now).1.run env ops := fun ops => by
      rw [run, List.foldl_append]
      rfl
    simp only [happend]
    exact (run_saved env hqueued post).2 _ [] ⟨_, hsaved.symm⟩
  · exact (ackChunks_saved hinv ack).2.2
  · obtain ⟨-, hbuffer⟩ := queueChunk_saved hinv flags data now
    rw [hfail, Bool.and_false] at hbuffer
    exact hbuffer

/-- The settings of a server with their default values, and a single address. -/
def unitEnv : NetEnv Unit := ⟨fun _ _ => true, 100, 1000⟩

/-- A connection that `DirectInit` has just set up. -/
def unitOnline : CNetConnection Unit := (init ()).directInit () netSecurityTokenUnsupported 0 false 0

/-- A chunk is queued and sent, a stale ack arrives, and a second chunk is queued. -/
theorem saved_until_acked_two :
    ((1, [7], 1) :: ((unitOnline.run unitEnv [.flush 0]).queueChunk 1 [7] 0).1.savedBy unitEnv
        [.flush 0, .feed ⟨0, 0, 0, [], []⟩ () 0 0 1, .queueChunk 1 [8] 2] <:+ (unitOnline.run unitEnv ([.flush 0] ++ .queueChunk 1 [7] 0 ::
        [.flush 0, .feed ⟨0, 0, 0, [], []⟩ () 0 0 1, .queueChunk 1 [8] 2])).saved ∨
      ∃ between op after,
        [.flush 0, .feed ⟨0, 0, 0, [], []⟩ () 0 0 1, .queueChunk 1 [8] 2] = between ++ op :: after ∧
        (unitOnline.run unitEnv ([.flush 0] ++ .queueChunk 1 [7] 0 :: between)).Acknowledges unitEnv op 1) :=
  (saved_until_acked unitEnv unitOnline rfl [.flush 0]).1 1 [7] 0
    [.flush 0, .feed ⟨0, 0, 0, [], []⟩ () 0 0 1, .queueChunk 1 [8] 2] (by decide +kernel) (by decide +kernel)

/-- 29 vital chunks of 1023 bytes fill the resend buffer. -/
def fullBuffer : CNetConnection Unit :=
  unitOnline.run unitEnv (List.replicate 29 (.queueChunk 1 (List.replicate 1023 7) 0))

/-- `QueueChunk` of one more chunk returns `-1`, but it has used up a sequence number, and the
chunk is in the packet that is sent next. -/
theorem queueChunk_full_half_queued :
    (fullBuffer.queueChunk 1 (List.replicate 1023 7) 0).2 = false ∧
      fullBuffer.sequence = 29 ∧
      (fullBuffer.queueChunk 1 (List.replicate 1023 7) 0).1.sequence = 30 ∧
      (fullBuffer.queueChunk 1 (List.replicate 1023 7) 0).1.construct.numChunks = 1 ∧
      (fullBuffer.queueChunk 1 (List.replicate 1023 7) 0).1.construct.chunkData =
        CNetChunkHeader.pack ⟨1, 1023, 30⟩ 4 ++ List.replicate 1023 7 := by
  decide +kernel

end CNetConnection

end DDNet
